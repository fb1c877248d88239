import CommentOutline.Proofs.Outline.Ascending
import CommentOutline.Proofs.Outline.Sites
import CommentOutline.Proofs.Outline.Trail

set_option autoImplicit false

/-! Groups that annotations share. An annotation goes through the groups with the keys of its
labels, so two of them share a group if their labels have one key, be it that the labels agree or
that the joiner stands in them. Labels without the standard separator are told apart by their
keys. -/

namespace CommentOutline.Outline

namespace Builder

def trailsOf (separator : String) (pairs : List (String × Int)) :
    List ((String × Int) × List Nat) :=
  (start (.token separator)).reset.trails pairs

/-- A trail goes through one group for each label but the last, and two trails meet where the labels
down to there have one key. -/
structure SharesByKeys (builder : Builder) (separator : String)
    (ways : List ((String × Int) × List Nat)) : Prop where
  marks : ∀ way ∈ ways, builder.Marks (pathLabels separator way.1.1) way.2
  meet : ∀ first ∈ ways, ∀ second ∈ ways, ∀ depth depth', depth < first.2.length →
    depth' < second.2.length →
    (first.2[depth]? = second.2[depth']? ↔
      pathKey ((pathLabels separator first.1.1).take (depth + 1)) =
        pathKey ((pathLabels separator second.1.1).take (depth' + 1)))

/-- Annotations share a group at a depth exactly if their labels agree down to there, and every
group stands at one place. -/
structure SharesByLabels (builder : Builder) (separator : String)
    (ways : List ((String × Int) × List Nat)) : Prop where
  agree : ∀ first ∈ ways, ∀ second ∈ ways, ∀ depth, depth < first.2.length →
    depth < second.2.length →
    (first.2[depth]? = second.2[depth]? ↔
      (pathLabels separator first.1.1).take (depth + 1) =
        (pathLabels separator second.1.1).take (depth + 1))
  once : ∀ key id, builder.containers.lookup key = some id → builder.StandsOnce id

end Builder

/-- Labels of one depth have different keys unless they agree, and every group has one site. -/
structure TellsApart (separator : String) (pairs : List (String × Int)) : Prop where
  keys : ∀ first ∈ pairs, ∀ second ∈ pairs, ∀ depth,
    depth + 1 < (Builder.pathLabels separator first.1).length →
    depth + 1 < (Builder.pathLabels separator second.1).length →
    pathKey ((Builder.pathLabels separator first.1).take (depth + 1)) =
      pathKey ((Builder.pathLabels separator second.1).take (depth + 1)) →
    (Builder.pathLabels separator first.1).take (depth + 1) =
      (Builder.pathLabels separator second.1).take (depth + 1)
  sites : ∀ brief ∈ (pairs.flatMap (stepsOf separator)).filterMap Step.names?,
    ∃! site, Site (pairs.flatMap (stepsOf separator)) brief.key site

namespace Plan

def siteAt : List String → Option String
  | [] => none
  | top :: rest => some (pathKey (top :: rest))

theorem slotsAt_eq_slotsUnder (plan : Plan) (path : List String) :
    plan.slotsAt path = plan.slotsUnder (siteAt path) := by
  cases path <;> rfl

theorem Orderly.stepsOf_plain {plan : Plan} (orderly : plan.Orderly) {separator : String}
    {pair : String × Int} (plain : PlainPath (Builder.pathLabels separator pair.1)) :
    (plan.run (Outline.stepsOf separator pair)).Orderly := by
  rw [Outline.stepsOf]
  rw [Builder.pathLabels] at plain
  by_cases cut : Text.contains pair.1 separator = true
  · rw [if_pos cut] at plain ⊢
    exact orderly.pathSteps pair.2 plain
  · rw [if_neg cut]
    exact orderly.flat pair.1 pair.2

theorem ofPairs_orderly {separator : String} {pairs : List (String × Int)}
    (plain : ∀ pair ∈ pairs, PlainPath (Builder.pathLabels separator pair.1)) :
    (ofPairs separator pairs).Orderly := by
  induction pairs using List.reverseRecOn with
  | nil => exact orderly_empty
  | append_singleton pairs pair ih =>
      have before := ih fun other inside => plain other (List.mem_append_left _ inside)
      rw [ofPairs, List.flatMap_append, List.flatMap_singleton, run_append]
      exact before.stepsOf_plain (plain pair List.mem_concat_self)

end Plan

namespace Builder

variable {builder : Builder} {plan : Plan}

/-- Two trails meet exactly where the labels down to there have one key. -/
theorem Realizes.meet_iff (real : builder.Realizes plan) {labels labels' : List String}
    {ids ids' : List Nat} (marks : builder.Marks labels ids) (marks' : builder.Marks labels' ids')
    {depth depth' : Nat} (bound : depth < ids.length) (bound' : depth' < ids'.length) :
    ids[depth]? = ids'[depth']? ↔
      pathKey (labels.take (depth + 1)) = pathKey (labels'.take (depth' + 1)) := by
  have here := List.getElem?_eq_getElem bound
  have here' := List.getElem?_eq_getElem bound'
  have found := marks.found depth _ here
  have found' := marks'.found depth' _ here'
  rw [here, here', Option.some.injEq]
  constructor
  · intro same
    rw [← same] at found'
    exact real.index_injective found found'
  · intro same
    rw [same, found'] at found
    exact (Option.some.inj found).symm

theorem Realizes.sharesByLabels_iff {separator : String} {pairs : List (String × Int)}
    (real : builder.Realizes (.ofPairs separator pairs)) {ways : List ((String × Int) × List Nat)}
    (listed : ways.map Prod.fst = pairs) (shares : builder.SharesByKeys separator ways) :
    builder.SharesByLabels separator ways ↔ TellsApart separator pairs := by
  have sites := real.standsOnce_iff
  constructor
  · intro byLabels
    refine ⟨?_, sites.mp byLabels.once⟩
    intro first member second inside depth bound bound' same
    rw [← listed] at member inside
    obtain ⟨way, isWay, rfl⟩ := List.mem_map.mp member
    obtain ⟨way', isWay', rfl⟩ := List.mem_map.mp inside
    have under : depth < way.2.length := by
      rw [(shares.marks way isWay).length]
      omega
    have under' : depth < way'.2.length := by
      rw [(shares.marks way' isWay').length]
      omega
    have meets := (shares.meet way isWay way' isWay' depth depth under under').mpr same
    exact (byLabels.agree way isWay way' isWay' depth under under').mp meets
  · intro tells
    refine ⟨?_, sites.mpr tells.sites⟩
    intro way isWay way' isWay' depth under under'
    rw [shares.meet way isWay way' isWay' depth depth under under']
    have isPair : way.1 ∈ pairs := listed ▸ List.mem_map_of_mem isWay
    have isPair' : way'.1 ∈ pairs := listed ▸ List.mem_map_of_mem isWay'
    rw [(shares.marks way isWay).length] at under
    rw [(shares.marks way' isWay').length] at under'
    constructor
    · exact tells.keys way.1 isPair way'.1 isPair' depth (by omega) (by omega)
    · exact congrArg pathKey

theorem exists_sharesByKeys {separator : String} (nonempty : separator ≠ "")
    (pairs : List (String × Int)) :
    ∃ builder : Builder, (start (.token separator)).build pairs = (builder, none) ∧
      builder.Realizes (.ofPairs separator pairs) ∧
      (trailsOf separator pairs).map Prod.fst = pairs ∧
      builder.SharesByKeys separator (trailsOf separator pairs) := by
  obtain ⟨builder, built, real, -⟩ :=
    (start (.token separator)).build_realizes Grows.nil rfl nonempty pairs
  obtain ⟨listed, marks⟩ := (sound_start (.token separator)).reset.marks_trails rfl nonempty pairs
  have last : (start (.token separator)).reset.addAll pairs = (builder, none) := built
  rw [last] at marks
  refine ⟨builder, built, real, listed, marks, ?_⟩
  intro first isFirst second isSecond depth depth' bound bound'
  exact real.meet_iff (marks first isFirst) (marks second isSecond) bound bound'

/-! ### Labels without the standard separator -/

theorem Realizes.site_eq (real : builder.Realizes plan) (orderly : plan.Orderly)
    {path : List String} {label : String} (plain : PlainPath (path ++ [label]))
    {site : Option String}
    (stands : .group (pathKey (path ++ [label])) ∈ plan.slotsUnder site) :
    site = Plan.siteAt path := by
  -- the site is the end of some path
  obtain ⟨front, plainFront, rfl⟩ : ∃ front, PlainPath front ∧ site = Plan.siteAt front := by
    cases site with
    | none => exact ⟨[], plainPath_nil, rfl⟩
    | some parent =>
        obtain ⟨above, found⟩ := real.isSome_lookup_of_mem_below stands
        obtain ⟨cell, -, carries⟩ := real.group parent above found
        obtain ⟨front, plainFront, same, -, -⟩ := orderly.placed parent _ carries.named
        refine ⟨front ++ [cell.brief.label], plainFront, ?_⟩
        rw [same]
        cases front <;> rfl
  rw [← Plan.slotsAt_eq_slotsUnder] at stands
  obtain ⟨last, plainLast, same, -⟩ := orderly.fitting front _ plainFront stands
  rw [(pathKey_concat_injective plain (plainFront.concat plainLast) same).1]

theorem tellsApart_of_plain {separator : String} (nonempty : separator ≠ "")
    {pairs : List (String × Int)}
    (plain : ∀ pair ∈ pairs, PlainPath (pathLabels separator pair.1)) :
    TellsApart separator pairs where
  keys := by
    intro first member second inside depth bound bound' same
    have plainFirst : PlainPath ((pathLabels separator first.1).take (depth + 1)) :=
      fun label given => plain first member label (List.mem_of_mem_take given)
    have plainSecond : PlainPath ((pathLabels separator second.1).take (depth + 1)) :=
      fun label given => plain second inside label (List.mem_of_mem_take given)
    apply pathKey_injective plainFirst plainSecond _ _ same
    · exact List.ne_nil_of_length_pos (by rw [List.length_take]; omega)
    · exact List.ne_nil_of_length_pos (by rw [List.length_take]; omega)
  sites := by
    intro brief named
    obtain ⟨builder, -, real, -⟩ := exists_sharesByKeys nonempty pairs
    have orderly := Plan.ofPairs_orderly plain
    obtain ⟨id, found⟩ := (real.found_iff_named brief.key).mpr ⟨brief, named, rfl⟩
    obtain ⟨cell, -, carries⟩ := real.group brief.key id found
    obtain ⟨path, plainPath, same, stands, -⟩ := orderly.placed brief.key _ carries.named
    rw [Plan.slotsAt_eq_slotsUnder] at stands
    refine ⟨Plan.siteAt path, (Plan.group_mem_slotsUnder_iff _ _ _).mp stands, ?_⟩
    intro other isSite
    rw [same] at isSite
    exact real.site_eq orderly plainPath ((Plan.group_mem_slotsUnder_iff _ _ _).mpr isSite)

/-- At the standard separator annotations share groups exactly as far as their labels agree. -/
theorem exists_sharesByLabels (pairs : List (String × Int)) :
    ∃ builder, (start (.token "::")).build pairs = (builder, none) ∧
      builder.SharesByLabels "::" (trailsOf "::" pairs) := by
  have nonempty : ("::" : String) ≠ "" := by decide
  obtain ⟨builder, built, real, listed, shares⟩ := exists_sharesByKeys nonempty pairs
  refine ⟨builder, built, (real.sharesByLabels_iff listed shares).mpr ?_⟩
  apply tellsApart_of_plain nonempty
  intro pair _
  rw [pathLabels]
  split
  · exact segments_plain pair.1
  · exact plainPath_nil

/-! ### The exact condition -/

/-- At any separator, annotations share a group where the labels down to it have one key. So they
share it exactly as far as their labels agree, and every group stands at one place, if and only if
labels of one depth have different keys unless they agree, and every group has one site. -/
theorem sharesByLabels_iff_tellsApart (separator : String) (pairs : List (String × Int))
    (nonempty : separator ≠ "") :
    ∃ builder, (start (.token separator)).build pairs = (builder, none) ∧
      buildForest (.token separator) pairs = .ok builder.forest ∧
      (trailsOf separator pairs).map Prod.fst = pairs ∧
      builder.SharesByKeys separator (trailsOf separator pairs) ∧
      (builder.SharesByLabels separator (trailsOf separator pairs) ↔
        TellsApart separator pairs) := by
  obtain ⟨builder, built, real, listed, shares⟩ := exists_sharesByKeys nonempty pairs
  refine ⟨builder, built, ?_, listed, shares, real.sharesByLabels_iff listed shares⟩
  rw [buildForest, built]

/-- The first label of the second annotation leads to the group that the first one has made below
`A`. -/
theorem sharesByLabels_iff_tellsApart_slashes : ("/" : String) ≠ "" ∧
    ∃ builder, (start (.token "/")).build [("A/B/x", 1), ("A :: B/y", 2)] = (builder, none) ∧
      buildForest (.token "/") [("A/B/x", 1), ("A :: B/y", 2)] = .ok builder.forest ∧
      (trailsOf "/" [("A/B/x", 1), ("A :: B/y", 2)]).map Prod.fst =
        [("A/B/x", 1), ("A :: B/y", 2)] ∧
      builder.SharesByKeys "/" (trailsOf "/" [("A/B/x", 1), ("A :: B/y", 2)]) ∧
      (builder.SharesByLabels "/" (trailsOf "/" [("A/B/x", 1), ("A :: B/y", 2)]) ↔
        TellsApart "/" [("A/B/x", 1), ("A :: B/y", 2)]) :=
  ⟨by decide, sharesByLabels_iff_tellsApart "/" _ (by decide)⟩

/-- The joiner in two labels makes one group of two, at two places. -/
theorem not_sharesByLabels_of_joiner : Ascending [("A/B :: C/x", 1), ("A :: B/C/y", 2)] ∧
    ∃ builder,
      (start (.token "/")).build [("A/B :: C/x", 1), ("A :: B/C/y", 2)] = (builder, none) ∧
      ¬ builder.SharesByLabels "/" (trailsOf "/" [("A/B :: C/x", 1), ("A :: B/C/y", 2)]) := by
  have trails : trailsOf "/" [("A/B :: C/x", 1), ("A :: B/C/y", 2)] =
      [(("A/B :: C/x", 1), [0, 1]), (("A :: B/C/y", 2), [3, 1])] := by
    decide +kernel
  refine ⟨by decide, ((start (.token "/")).build [("A/B :: C/x", 1), ("A :: B/C/y", 2)]).1,
    by decide +kernel, ?_⟩
  intro shares
  rw [trails] at shares
  have agree := shares.agree _ List.mem_cons_self _ (List.mem_cons_of_mem _ List.mem_cons_self) 1
    (by simp) (by simp)
  have labels : (pathLabels "/" "A/B :: C/x").take 2 ≠ (pathLabels "/" "A :: B/C/y").take 2 := by
    decide +kernel
  exact labels (agree.mp rfl)

end Builder

end CommentOutline.Outline
