import CommentOutline.Proofs.Outline.Positions
import CommentOutline.Proofs.Outline.Reach

set_option autoImplicit false

/-! Sites of groups. A step puts a group at the top if it is named there first, and below any group
that it is named below unless an entry with its key stands there before. Each of these sites is one
place, so a group stands at one place if it has one site, and so have the groups above it. -/

namespace CommentOutline.Outline

open List (Forall₂)

/-- Where a group is put: at the top, if it is named there first, and below every group that it is
named below, unless an entry with its key stands there before. -/
inductive Site (steps : List Step) (key : String) : Option String → Prop
  | top {before after : List Step} {line : Int} :
      steps = before ++ .top key line :: after →
      (∀ brief ∈ before.filterMap Step.names?, brief.key ≠ key) → Site steps key none
  | below {before after : List Step} {parent label : String} {line : Int} :
      steps = before ++ .below parent label line :: after → containerKey parent label = key →
      (∀ leaf number, .entry parent leaf number ∈ before → leafKey parent leaf number ≠ key) →
      Site steps key (some parent)

theorem Site.length_lt {steps : List Step} {key parent : String}
    (site : Site steps key (some parent)) : parent.length < key.length := by
  cases site with
  | below _ same _ => exact same ▸ containerKey_length_lt parent _

namespace Plan

/-- What stands at the top, or below a group. -/
def slotsUnder (plan : Plan) : Option String → List Slot
  | none => plan.roots
  | some parent => plan.below parent

theorem group_mem_slotsUnder_iff (steps : List Step) (site : Option String) (key : String) :
    .group key ∈ (empty.run steps).slotsUnder site ↔ Site steps key site := by
  cases site with
  | none =>
      rw [slotsUnder, mem_roots_iff]
      constructor
      · intro stands
        rcases stands with ⟨label, line, -, same⟩ | ⟨before, label, line, after, split, same, first⟩
        · cases same
        · cases same
          exact .top split first
      · intro site
        cases site with
        | top split first => exact Or.inr ⟨_, _, _, _, split, rfl, first⟩
  | some parent =>
      rw [slotsUnder, group_mem_below_iff]
      constructor
      · intro stands
        obtain ⟨before, label, line, after, split, same, clear⟩ := stands
        exact .below split same clear
      · intro site
        cases site with
        | below split same clear => exact ⟨_, _, _, _, split, same, clear⟩

/-- No group stands twice under one parent or twice at the top, and those at the top are named. -/
structure Separate (plan : Plan) : Prop where
  apart : ∀ site, (plan.slotsUnder site).Pairwise Slot.Apart
  named : ∀ key, .group key ∈ plan.roots → (plan.group? key).isSome = true

theorem pairwise_apart_concat {slots : List Slot} {slot : Slot}
    (apart : slots.Pairwise Slot.Apart) (fresh : ∀ key, slot = .group key → slot ∉ slots) :
    (slots ++ [slot]).Pairwise Slot.Apart := by
  refine List.pairwise_append.mpr ⟨apart, List.pairwise_singleton _ _, ?_⟩
  intro first inside last isLast key isGroup sameGroup
  rw [List.mem_singleton.mp isLast] at sameGroup
  exact fresh key sameGroup (by rw [sameGroup, ← isGroup]; exact inside)

theorem separate_empty : empty.Separate where
  apart := by
    intro site
    cases site <;> exact .nil
  named := fun _ stands => nomatch stands

variable {plan : Plan}

/-- A step puts at most one thing at a place, and a group only where it does not stand yet. -/
theorem Separate.slotsUnder_perform (separate : plan.Separate) (step : Step)
    (site : Option String) :
    (plan.perform step).slotsUnder site = plan.slotsUnder site ∨
      ∃ slot, (plan.perform step).slotsUnder site = plan.slotsUnder site ++ [slot] ∧
        ∀ key, slot = .group key → slot ∉ plan.slotsUnder site := by
  cases step with
  | flat label line =>
      cases site with
      | none =>
          refine Or.inr ⟨_, rfl, ?_⟩
          intro key isGroup
          cases isGroup
      | some parent => exact Or.inl rfl
  | top label line =>
      cases site with
      | none =>
          rw [perform]
          split
          · exact Or.inl rfl
          · rename_i unknown
            refine Or.inr ⟨.group label, rfl, fun _ _ stands => unknown ?_⟩
            exact separate.named label stands
      | some parent => exact Or.inl (congrFun (below_top plan label line) parent)
  | below above label line =>
      cases site with
      | none =>
          rw [perform, offer]
          split <;> exact Or.inl rfl
      | some parent =>
          by_cases here : parent = above
          · subst here
            rw [perform, slotsUnder, below_offer_self]
            split
            · exact Or.inl (List.append_nil _)
            · rename_i missing
              refine Or.inr ⟨_, rfl, fun _ _ stands => missing ?_⟩
              exact List.any_eq_true.mpr ⟨_, stands, beq_self_eq_true _⟩
          · rw [perform, slotsUnder, below_offer_other _ _ here]
            exact Or.inl rfl
  | entry above label line =>
      cases site with
      | none => exact Or.inl rfl
      | some parent =>
          by_cases here : parent = above
          · subst here
            rw [perform, slotsUnder, below_put_self]
            refine Or.inr ⟨_, rfl, ?_⟩
            intro key isGroup
            cases isGroup
          · rw [perform, slotsUnder, below_put_other plan _ here]
            exact Or.inl rfl

theorem Separate.perform (separate : plan.Separate) (step : Step) :
    (plan.perform step).Separate where
  apart := by
    intro site
    rcases separate.slotsUnder_perform step site with same | ⟨slot, longer, fresh⟩
    · rw [same]
      exact separate.apart site
    · rw [longer]
      exact pairwise_apart_concat (separate.apart site) fresh
  named := by
    intro key stands
    rw [group?_perform, Option.isSome_or]
    rcases (mem_roots_perform plan step _).mp stands with
      already | ⟨label, line, -, same⟩ | ⟨label, line, rfl, same, -⟩
    · rw [separate.named key already, Bool.true_or]
    · cases same
    · cases same
      rw [Step.names?, Option.filter_some, beq_self_eq_true, if_pos rfl, Option.isSome_some,
        Bool.or_true]

theorem Separate.run (separate : plan.Separate) (steps : List Step) :
    (plan.run steps).Separate := by
  induction steps generalizing plan with
  | nil => exact separate
  | cons step steps ih => exact ih (separate.perform step)

end Plan

namespace Builder

variable {builder : Builder} {plan : Plan}

/-! ### Places of groups -/

theorem Stands.places_ne_nil {leftOut places : List Nat} {path : List String} {id : Nat}
    (stands : builder.Stands leftOut places path id) : places ≠ [] := by
  cases stands <;> simp

theorem Stands.exists_slot (real : builder.Realizes plan) {leftOut places : List Nat}
    {path : List String} {id : Nat} (stands : builder.Stands leftOut places path id) :
    ∃ slot, builder.Holds id slot := by
  induction stands with
  | root here _ _ =>
      obtain ⟨slot, -, holds⟩ := exists_right real.roots (List.mem_of_getElem? here)
      exact ⟨slot, holds⟩
  | inside _ presentAbove here _ _ ih =>
      obtain ⟨slot, holdsAbove⟩ := ih
      cases slot with
      | entry brief =>
          cases holdsAbove.1.symm.trans presentAbove
          cases here
      | group key =>
          obtain ⟨cell, there, carries⟩ := real.group key _ holdsAbove
          cases there.symm.trans presentAbove
          obtain ⟨slot, -, holds⟩ := exists_right carries.children (List.mem_of_getElem? here)
          exact ⟨slot, holds⟩

theorem Stands.same_cell {leftOut places : List Nat} {path : List String} {id : Nat}
    {builder : Builder} (stands : builder.Stands leftOut places path id) :
    ∀ places' path' id', builder.Stands leftOut places' path' id' → places' = places →
      id' = id := by
  induction stands with
  | @root place id cell here _ _ =>
      intro places' path' id' other same
      cases other with
      | root here' =>
          rw [(List.cons.inj same).1, here] at here'
          exact (Option.some.inj here').symm
      | inside above' =>
          have first := (List.append_inj' (same.trans (List.nil_append _).symm) rfl).1
          exact absurd first above'.places_ne_nil
  | @inside places path above place id parent cell standsAbove presentAbove here _ _ ih =>
      intro places' path' id' other same
      cases other with
      | root =>
          have first := (List.append_inj' ((List.nil_append _).trans same) rfl).1
          exact absurd first.symm standsAbove.places_ne_nil
      | inside standsAbove' presentAbove' here' =>
          obtain ⟨rfl, sameLast⟩ := List.append_inj' same rfl
          have sameAbove := ih _ _ _ standsAbove' rfl
          rw [sameAbove, presentAbove] at presentAbove'
          cases presentAbove'
          rw [(List.cons.inj sameLast).1, here] at here'
          exact (Option.some.inj here').symm

theorem Realizes.place_iff (real : builder.Realizes plan) {ids : List Nat} {slots : List Slot}
    (holds : Forall₂ builder.Holds ids slots) {key : String} {id : Nat}
    (found : builder.containers.lookup key = some id) (place : Nat) :
    ids[place]? = some id ↔ slots[place]? = some (.group key) := by
  constructor
  · intro here
    obtain ⟨slot, there, held⟩ := getElem?_of_forall₂ holds here
    cases slot with
    | entry brief => exact absurd found (held.2 key)
    | group named => rw [there, real.index_injective held found]
  · intro here
    obtain ⟨other, there, held⟩ := getElem?_of_forall₂ holds.flip here
    have stands : builder.containers.lookup key = some other := held
    rw [there, ← stands, found]

/-- The places lead to a site: no places to the top, those of a group to what is below it. -/
def LeadsTo (builder : Builder) (places : List Nat) : Option String → Prop
  | none => places = []
  | some parent => ∃ above path, builder.containers.lookup parent = some above ∧
      builder.Stands [] places path above

theorem LeadsTo.site_unique (real : builder.Realizes plan) {places : List Nat}
    {site other : Option String} (leads : builder.LeadsTo places site)
    (leadsOther : builder.LeadsTo places other) : site = other := by
  match site, other with
  | none, none => rfl
  | none, some parent =>
      obtain ⟨above, path, -, stands⟩ := leadsOther
      exact absurd leads stands.places_ne_nil
  | some parent, none =>
      obtain ⟨above, path, -, stands⟩ := leads
      exact absurd leadsOther stands.places_ne_nil
  | some parent, some parent' =>
      obtain ⟨above, path, found, stands⟩ := leads
      obtain ⟨above', path', found', stands'⟩ := leadsOther
      rw [stands.same_cell _ _ _ stands' rfl] at found'
      rw [real.index_injective found found']

theorem Realizes.stands_iff (real : builder.Realizes plan) {key : String} {id : Nat}
    (found : builder.containers.lookup key = some id) (places : List Nat) :
    (∃ path, builder.Stands [] places path id) ↔
      ∃ front place site, places = front ++ [place] ∧ builder.LeadsTo front site ∧
        (plan.slotsUnder site)[place]? = some (.group key) := by
  constructor
  · intro given
    obtain ⟨path, stands⟩ := given
    cases stands with
    | root here _ _ =>
        exact ⟨[], _, none, rfl, rfl, (real.place_iff real.roots found _).mp here⟩
    | @inside front path above place _ parent cell standsAbove presentAbove here _ _ =>
        obtain ⟨slot, holds⟩ := standsAbove.exists_slot real
        cases slot with
        | entry brief =>
            cases holds.1.symm.trans presentAbove
            cases here
        | group parentKey =>
            obtain ⟨other, there, carries⟩ := real.group parentKey above holds
            cases there.symm.trans presentAbove
            exact ⟨front, place, some parentKey, rfl, ⟨above, path, holds, standsAbove⟩,
              (real.place_iff carries.children found place).mp here⟩
  · intro given
    obtain ⟨front, place, site, rfl, leads, here⟩ := given
    obtain ⟨cell, present, -⟩ := real.group key id found
    cases site with
    | none =>
        cases leads
        exact ⟨_, .root ((real.place_iff real.roots found place).mpr here) present
          List.not_mem_nil⟩
    | some parentKey =>
        obtain ⟨above, path, foundAbove, standsAbove⟩ := leads
        obtain ⟨parent, presentAbove, carries⟩ := real.group parentKey above foundAbove
        exact ⟨_, .inside standsAbove presentAbove
          ((real.place_iff carries.children found place).mpr here) present List.not_mem_nil⟩

def StandsOnce (builder : Builder) (id : Nat) : Prop :=
  ∃ places, (∃ path, builder.Stands [] places path id) ∧
    ∀ places' path', builder.Stands [] places' path' id → places' = places

theorem Realizes.isSome_lookup_of_mem_below (real : builder.Realizes plan) {parent : String}
    {slot : Slot} (stands : slot ∈ plan.below parent) :
    ∃ above, builder.containers.lookup parent = some above := by
  cases found : builder.containers.lookup parent with
  | some above => exact ⟨above, rfl⟩
  | none =>
      rw [(real.missing parent found).2] at stands
      cases stands

theorem Realizes.standsOnce_of_site {steps : List Step}
    (real : builder.Realizes (.run .empty steps)) {key : String} {id : Nat}
    (found : builder.containers.lookup key = some id)
    {site : Option String} (isSite : Site steps key site)
    (only : ∀ other, Site steps key other → other = site)
    (above : ∀ parent under, site = some parent → builder.containers.lookup parent = some under →
      builder.StandsOnce under) : builder.StandsOnce id := by
  rw [← Plan.group_mem_slotsUnder_iff] at isSite
  obtain ⟨place, here⟩ := List.getElem?_of_mem isSite
  obtain ⟨front, leads, onlyFront⟩ : ∃ front, builder.LeadsTo front site ∧
      ∀ other, builder.LeadsTo other site → other = front := by
    cases site with
    | none => exact ⟨[], rfl, fun _ leads => leads⟩
    | some parent =>
        obtain ⟨under, foundUnder⟩ := real.isSome_lookup_of_mem_below isSite
        obtain ⟨front, ⟨path, stands⟩, unique⟩ := above parent under rfl foundUnder
        refine ⟨front, ⟨under, path, foundUnder, stands⟩, ?_⟩
        intro other leads
        obtain ⟨under', path', foundUnder', stands'⟩ := leads
        cases foundUnder.symm.trans foundUnder'
        exact unique other path' stands'
  refine ⟨front ++ [place], (real.stands_iff found _).mpr ⟨_, _, _, rfl, leads, here⟩, ?_⟩
  intro places' path' stands'
  obtain ⟨front', place', site', rfl, leads', here'⟩ :=
    (real.stands_iff found _).mp ⟨path', stands'⟩
  have sameSite := only site'
    ((Plan.group_mem_slotsUnder_iff steps site' key).mp (List.mem_of_getElem? here'))
  subst sameSite
  rw [onlyFront front' leads',
    place_unique_of_apart ((Plan.separate_empty.run steps).apart site') here' here]

theorem Realizes.found_iff_named {steps : List Step} (real : builder.Realizes (.run .empty steps))
    (key : String) :
    (∃ id, builder.containers.lookup key = some id) ↔
      ∃ brief ∈ steps.filterMap Step.names?, brief.key = key := by
  rw [← Option.isSome_iff_exists, ← real.isSome_group?, ← Option.ne_none_iff_isSome, ne_eq,
    Plan.group?_eq_none_iff]
  simp only [ne_eq, not_forall, not_not, exists_prop]

theorem Realizes.standsOnce_iff {steps : List Step} (real : builder.Realizes (.run .empty steps)) :
    (∀ key id, builder.containers.lookup key = some id → builder.StandsOnce id) ↔
      ∀ brief ∈ steps.filterMap Step.names?, ∃! site, Site steps brief.key site := by
  constructor
  · intro once brief named
    obtain ⟨id, found⟩ := (real.found_iff_named brief.key).mpr ⟨brief, named, rfl⟩
    obtain ⟨places, given, unique⟩ := once brief.key id found
    obtain ⟨front, place, site, rfl, leads, here⟩ := (real.stands_iff found places).mp given
    refine ⟨site, (Plan.group_mem_slotsUnder_iff steps site _).mp (List.mem_of_getElem? here), ?_⟩
    intro other isSite
    rw [← Plan.group_mem_slotsUnder_iff] at isSite
    obtain ⟨place', here'⟩ := List.getElem?_of_mem isSite
    -- some places lead to the other site too, since its parent stands somewhere
    obtain ⟨front', leads'⟩ : ∃ front', builder.LeadsTo front' other := by
      cases other with
      | none => exact ⟨[], rfl⟩
      | some parent =>
          obtain ⟨above, foundAbove⟩ := real.isSome_lookup_of_mem_below isSite
          obtain ⟨front', ⟨path, stands⟩, -⟩ := once parent above foundAbove
          exact ⟨front', above, path, foundAbove, stands⟩
    obtain ⟨path', stands'⟩ :=
      (real.stands_iff found _).mpr ⟨front', place', other, rfl, leads', here'⟩
    have sameFront := (List.append_inj' (unique _ path' stands') rfl).1
    rw [sameFront] at leads'
    exact leads'.site_unique real leads
  · intro single
    -- the parent of a group has a shorter key
    have bySize : ∀ (size : Nat) (key : String) (id : Nat), key.length = size →
        builder.containers.lookup key = some id → builder.StandsOnce id := by
      intro size
      induction size using Nat.strong_induction_on with
      | _ size ih =>
          intro key id isSize found
          obtain ⟨brief, named, rfl⟩ := (real.found_iff_named key).mp ⟨id, found⟩
          obtain ⟨site, isSite, only⟩ := single brief named
          apply real.standsOnce_of_site found isSite only
          intro parent under isParent foundUnder
          subst isParent
          exact ih parent.length (isSize ▸ isSite.length_lt) parent under rfl foundUnder
    intro key id found
    exact bySize key.length key id rfl found

end Builder

end CommentOutline.Outline
