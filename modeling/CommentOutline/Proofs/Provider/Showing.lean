import CommentOutline.Proofs.Outline.Realization
import CommentOutline.Provider.Basic

set_option autoImplicit false

/-! What readers of a provider see. A build starts from nothing, so the outline that it shows is the
one that a fresh builder makes of the same document, and it is shown when it is complete. -/

namespace CommentOutline

open Comment (Settings Style)
open Outline

namespace Outline.Builder

theorem held_hold (builder : Builder) : builder.held builder.hold = builder.forest := by
  have current : (builder.past ++ [builder.roots]).getD builder.past.length [] = builder.roots := by
    rw [List.getD_eq_getElem?_getD, List.getElem?_concat_length, Option.getD_some]
  rw [held, hold, current, forest]

end Outline.Builder

namespace Provider

variable {Listener : Type} {provider : Provider Listener} {style : Style} {separator : String}
variable {built : Document}

/-- Readers see the outline of a document, and the builder holds nothing else. -/
structure Shows (provider : Provider Listener) (style : Style) (separator : String)
    (built : Document) : Prop where
  styled : provider.style = style
  token : provider.builder.separator = .token separator
  real : provider.builder.Realizes (.ofPairs separator (built.scan style))
  latest : provider.shown = provider.builder.hold

/-- The document and the listeners have no part in what readers see. -/
theorem Shows.of_same (shows : provider.Shows style separator built) {next : Provider Listener}
    (sameStyle : next.style = provider.style) (sameBuilder : next.builder = provider.builder)
    (sameShown : next.shown = provider.shown) : next.Shows style separator built where
  styled := sameStyle.trans shows.styled
  token := by rw [sameBuilder, shows.token]
  real := by
    rw [sameBuilder]
    exact shows.real
  latest := by rw [sameShown, sameBuilder, shows.latest]

theorem Shows.roots_eq_forest (shows : provider.Shows style separator built) :
    provider.roots = provider.builder.forest := by
  rw [roots, shows.latest, Builder.held_hold]

theorem Shows.buildForest_eq (shows : provider.Shows style separator built)
    (nonempty : separator ≠ "") :
    buildForest (.token separator) (built.scan style) = .ok provider.roots := by
  rw [shows.real.buildForest_eq nonempty, shows.roots_eq_forest]

theorem exists_parse (provider : Provider Listener) (styled : provider.style = style)
    (token : provider.builder.separator = .token separator) (nonempty : separator ≠ "")
    (grows : Grows provider.builder.cells) :
    ∃ builder : Builder,
      provider.parse = ({ provider with builder := builder, shown := builder.hold }, none) ∧
      { provider with builder := builder, shown := builder.hold : Provider Listener }.Shows style
        separator provider.document := by
  obtain ⟨builder, done, real, sameSeparator⟩ :=
    provider.builder.build_realizes grows token nonempty (provider.document.scan style)
  refine ⟨builder, ?_, styled, sameSeparator.trans token, real, rfl⟩
  rw [parse, styled, done]

theorem exists_create_shows (document : Document) {settings : Settings}
    (accepted : settings.check = .ok style) (token : style.separator = .token separator)
    (nonempty : separator ≠ "") (hasNavigator : Bool) :
    ∃ provider : Provider Listener, create document settings hasNavigator = .ok provider ∧
      provider.Shows style separator document ∧ provider.document = document ∧
      provider.hasNavigator = hasNavigator ∧ provider.changed = .silent := by
  have fresh : (Builder.start style.separator).separator = .token separator := token
  obtain ⟨builder, parsed, shows⟩ :=
    exists_parse (⟨document, style, hasNavigator, .start style.separator, 0, .silent⟩ :
      Provider Listener) rfl fresh nonempty Grows.nil
  refine ⟨_, ?_, shows, rfl, rfl, rfl⟩
  rw [create, accepted]
  simp only [parsed]

theorem Shows.exists_refresh (shows : provider.Shows style separator built)
    (nonempty : separator ≠ "") :
    ∃ builder : Builder,
      provider.refresh = ({ provider with builder := builder, shown := builder.hold },
        .ok provider.changed.listeners) ∧
      { provider with builder := builder, shown := builder.hold : Provider Listener }.Shows style
        separator provider.document := by
  obtain ⟨builder, parsed, showsNext⟩ :=
    exists_parse provider shows.styled shows.token nonempty shows.real.grows
  refine ⟨builder, ?_, showsNext⟩
  rw [refresh, parsed]
  rfl

end Provider

end CommentOutline
