import CommentOutline.Proofs.Outline.Plan

set_option autoImplicit false

/-! The builder realizes the plan of its annotations. Every operation of the store keeps the
correspondence; an annotation never fails, since each step along its path finds the group that the
step before has made. What a builder shows is settled by the plan. -/

namespace CommentOutline.Outline.Builder

open List (Forall₂)

variable {builder : Builder} {plan : Plan}

/-! ### Operations of the store -/

theorem extends_newCell (builder : Builder) (label : String) (line : Int) (key : String) :
    Extends builder (builder.newCell label line key).2 where
  index := fun _ _ found => found
  loose := fun _ _ present free => ⟨getElem?_concat_of_some present _, free⟩

theorem Realizes.newCell (real : builder.Realizes plan) (label : String) (line : Int)
    (key : String) : (builder.newCell label line key).2.Realizes plan where
  grows := real.grows.concat label line key
  group := by
    intro name id found
    obtain ⟨cell, present, carries⟩ := real.group name id found
    exact ⟨cell, getElem?_concat_of_some present _, carries.key_eq, carries.named,
      Holds.extendAll (extends_newCell builder label line key) carries.children⟩
  missing := real.missing
  roots := Holds.extendAll (extends_newCell builder label line key) real.roots

theorem Realizes.holds_newCell (real : builder.Realizes plan) (brief : Brief) :
    (builder.newCell brief.label brief.line brief.key).2.Holds
      (builder.newCell brief.label brief.line brief.key).1 (.entry brief) := by
  refine ⟨List.getElem?_concat_length, ?_⟩
  intro key found
  obtain ⟨cell, present, _⟩ := real.group key _ found
  exact absurd (List.getElem?_eq_some_iff.mp present).1 (Nat.lt_irrefl _)

/-- The builder with a new group that stands nowhere yet. -/
def makeGroup (builder : Builder) (brief : Brief) : Builder :=
  (builder.newCell brief.label brief.line brief.key).2.register brief.key builder.cells.length

theorem lookup_makeGroup (builder : Builder) (brief : Brief) (key : String) :
    (builder.makeGroup brief).containers.lookup key =
      (builder.containers.lookup key).or
        (if key = brief.key then some builder.cells.length else none) := by
  simp only [makeGroup, register, newCell, List.lookup_append, List.lookup_cons, List.lookup_nil]
  by_cases same : key = brief.key
  · rw [if_pos same, beq_iff_eq.mpr same]
  · rw [if_neg same, beq_eq_false_iff_ne.mpr same]

theorem extends_makeGroup (builder : Builder) (brief : Brief) :
    Extends builder (builder.makeGroup brief) where
  index := by
    intro key id found
    rw [lookup_makeGroup, found, Option.some_or]
  loose := by
    intro id cell present free
    refine ⟨getElem?_concat_of_some present _, ?_⟩
    intro key found
    have bound : id < builder.cells.length := (List.getElem?_eq_some_iff.mp present).1
    rw [lookup_makeGroup] at found
    cases known : builder.containers.lookup key with
    | some other =>
        rw [known, Option.some_or] at found
        exact free key (known.trans found)
    | none =>
        rw [known, Option.none_or] at found
        split at found
        · have fresh := Option.some.inj found
          omega
        · cases found

theorem Realizes.makeGroup (real : builder.Realizes plan) (brief : Brief)
    (absent : builder.containers.lookup brief.key = none) :
    (builder.makeGroup brief).Realizes (plan.name brief) where
  grows := real.grows.concat brief.label brief.line brief.key
  group := by
    intro key id found
    rw [lookup_makeGroup] at found
    by_cases same : key = brief.key
    · subst key
      rw [absent, Option.none_or, if_pos rfl] at found
      cases found
      refine ⟨⟨brief.label, brief.line, brief.key, []⟩, List.getElem?_concat_length, rfl, ?_, ?_⟩
      · rw [Plan.group?_name, (real.missing _ absent).1, Option.none_or, if_pos rfl]
        rfl
      · show Forall₂ _ [] (plan.below brief.key)
        rw [(real.missing _ absent).2]
        exact .nil
    · rw [if_neg same, Option.or_none] at found
      obtain ⟨cell, present, carries⟩ := real.group key id found
      refine ⟨cell, getElem?_concat_of_some present _, carries.key_eq, ?_,
        Holds.extendAll (extends_makeGroup builder brief) carries.children⟩
      rw [Plan.group?_name, carries.named, Option.some_or]
  missing := by
    intro key gone
    rw [lookup_makeGroup, Option.or_eq_none_iff] at gone
    obtain ⟨unknown, other⟩ := gone
    have differs : brief.key ≠ key := by
      intro same
      rw [if_pos same.symm] at other
      cases other
    rw [Plan.group?_name, (real.missing key unknown).1, if_neg differs]
    exact ⟨rfl, (real.missing key unknown).2⟩
  roots := Holds.extendAll (extends_makeGroup builder brief) real.roots

theorem Realizes.name_known (real : builder.Realizes plan) (brief : Brief) {id : Nat}
    (known : builder.containers.lookup brief.key = some id) :
    builder.Realizes (plan.name brief) := by
  have same : ∀ key, (plan.name brief).group? key = plan.group? key := by
    apply Plan.group?_name_of_known
    rw [real.isSome_group?, known]
    rfl
  refine ⟨real.grows, ?_, ?_, real.roots⟩
  · intro key id found
    obtain ⟨cell, present, carries⟩ := real.group key id found
    exact ⟨cell, present, carries.key_eq, (same key).trans carries.named, carries.children⟩
  · intro key gone
    exact ⟨(same key).trans (real.missing key gone).1, (real.missing key gone).2⟩

theorem extends_addRoot (builder : Builder) (id : Nat) : Extends builder (builder.addRoot id) :=
  ⟨fun _ _ found => found, fun _ _ present free => ⟨present, free⟩⟩

theorem Realizes.addRoot (real : builder.Realizes plan) {id : Nat} {slot : Slot}
    (holds : builder.Holds id slot) : (builder.addRoot id).Realizes (plan.putRoot slot) where
  grows := real.grows
  group := by
    intro key known found
    obtain ⟨cell, present, carries⟩ := real.group key known found
    exact ⟨cell, present, carries.key_eq, carries.named,
      Holds.extendAll (extends_addRoot builder id) carries.children⟩
  missing := real.missing
  roots := Holds.extendAll (extends_addRoot builder id) (Holds.concat real.roots holds)

theorem Realizes.index_injective (real : builder.Realizes plan) {key key' : String} {id : Nat}
    (found : builder.containers.lookup key = some id)
    (found' : builder.containers.lookup key' = some id) : key = key' := by
  obtain ⟨cell, present, carries⟩ := real.group key id found
  obtain ⟨cell', present', carries'⟩ := real.group key' id found'
  have same : cell = cell' := Option.some.inj (present.symm.trans present')
  rw [← carries.key_eq, same, carries'.key_eq]

theorem extends_append (builder : Builder) {parent : String} {above : Nat}
    (found : builder.containers.lookup parent = some above) (child : Nat) :
    Extends builder (builder.append above child) where
  index := fun _ _ known => known
  loose := by
    intro id cell present free
    have other : above ≠ id := by
      rintro rfl
      exact free parent found
    exact ⟨(getElem?_withChild_other builder.cells other child).trans present, free⟩

theorem Realizes.append (real : builder.Realizes plan) {parent : String} {above child : Nat}
    {slot : Slot} (found : builder.containers.lookup parent = some above)
    (holds : builder.Holds child slot)
    (longer : ∀ under, builder.cells[child]? = some under → parent.length < under.key.length)
    (present : builder.cells[child]?.isSome = true) :
    (builder.append above child).Realizes (plan.put parent slot) := by
  obtain ⟨top, topPresent, topCarries⟩ := real.group parent above found
  obtain ⟨under, underPresent⟩ := Option.isSome_iff_exists.mp present
  have kept := extends_append builder found child
  refine ⟨?_, ?_, ?_, Holds.extendAll kept real.roots⟩
  · apply real.grows.withChild topPresent underPresent
    rw [topCarries.key_eq]
    exact longer under underPresent
  · intro key id known
    obtain ⟨cell, cellPresent, carries⟩ := real.group key id known
    by_cases same : key = parent
    · subst key
      have sameId : id = above := Option.some.inj (known.symm.trans found)
      subst id
      refine ⟨cell.withChild child, getElem?_withChild_self cellPresent child, carries.key_eq,
        carries.named, ?_⟩
      rw [Plan.below_put_self]
      exact Holds.concat (Holds.extendAll kept carries.children) (holds.extend kept)
    · have other : above ≠ id := by
        rintro rfl
        exact same (real.index_injective known found)
      refine ⟨cell, (getElem?_withChild_other builder.cells other child).trans cellPresent,
        carries.key_eq, carries.named, ?_⟩
      rw [Plan.below_put_other plan slot same]
      exact Holds.extendAll kept carries.children
  · intro key gone
    have other : key ≠ parent := by
      rintro rfl
      have contradiction := gone.symm.trans found
      cases contradiction
    rw [Plan.below_put_other plan slot other]
    exact real.missing key gone

theorem Realizes.key_of_holds (real : builder.Realizes plan) {id : Nat} {slot : Slot}
    (holds : builder.Holds id slot) :
    ∃ cell, builder.cells[id]? = some cell ∧ cell.key = slot.key := by
  cases slot with
  | entry brief => exact ⟨_, holds.1, rfl⟩
  | group key =>
      obtain ⟨cell, present, carries⟩ := real.group key id holds
      exact ⟨cell, present, carries.key_eq⟩

theorem Realizes.hasChildKey_eq (real : builder.Realizes plan) {parent : String} {above : Nat}
    (found : builder.containers.lookup parent = some above) (key : String) :
    builder.hasChildKey above key = plan.hasBelow parent key := by
  obtain ⟨top, present, carries⟩ := real.group parent above found
  have children := carries.children
  simp only [hasChildKey, present, Plan.hasBelow]
  generalize top.children = ids, plan.below parent = slots at children ⊢
  induction children with
  | nil => rfl
  | @cons id slot ids slots holds _ ih =>
      obtain ⟨cell, there, sameKey⟩ := real.key_of_holds holds
      rw [List.any_cons, List.any_cons, ih, there, ← sameKey]

/-! ### Steps -/

theorem Realizes.offer (real : builder.Realizes plan) {parent key : String} {above child : Nat}
    (found : builder.containers.lookup parent = some above)
    (holds : builder.containers.lookup key = some child) (longer : parent.length < key.length) :
    (builder.offer above child key).Realizes (plan.offer parent key) := by
  rw [Builder.offer, Plan.offer, real.hasChildKey_eq found]
  split
  · exact real
  · have stands : builder.Holds child (.group key) := holds
    obtain ⟨cell, present, sameKey⟩ := real.key_of_holds stands
    apply real.append found stands
    · intro under there
      have same : under = cell := Option.some.inj (there.symm.trans present)
      rw [same, sameKey]
      exact longer
    · rw [present]
      rfl

theorem Realizes.container (real : builder.Realizes plan) (label : String) (line : Int)
    (key : String) :
    (builder.container label line key).2.Realizes (plan.name ⟨label, line, key⟩) ∧
      (builder.container label line key).2.containers.lookup key =
        some (builder.container label line key).1 ∧
      Extends builder (builder.container label line key).2 ∧
      (builder.container label line key).2.separator = builder.separator := by
  unfold Builder.container
  split
  · rename_i id known
    exact ⟨real.name_known ⟨label, line, key⟩ known, known,
      ⟨fun _ _ found => found, fun _ _ present free => ⟨present, free⟩⟩, rfl⟩
  · rename_i absent
    refine ⟨real.makeGroup ⟨label, line, key⟩ absent, ?_,
      extends_makeGroup builder ⟨label, line, key⟩, rfl⟩
    have fresh := lookup_makeGroup builder ⟨label, line, key⟩ key
    rw [absent, Option.none_or, if_pos rfl] at fresh
    exact fresh

theorem Realizes.topContainer (real : builder.Realizes plan) (label : String) (line : Int) :
    (builder.topContainer label line).Realizes (plan.perform (.top label line)) ∧
      ((builder.topContainer label line).containers.lookup label).isSome = true ∧
      (builder.topContainer label line).separator = builder.separator := by
  rw [Plan.perform, real.isSome_group?]
  unfold Builder.topContainer
  split
  · rename_i id known
    rw [known, Option.isSome_some, if_pos rfl]
    exact ⟨real, rfl, rfl⟩
  · rename_i absent
    rw [absent, Option.isSome_none, if_neg Bool.false_ne_true]
    have fresh := lookup_makeGroup builder ⟨label, line, label⟩ label
    rw [absent, Option.none_or, if_pos rfl] at fresh
    refine ⟨?_, ?_, rfl⟩
    · have stands : Holds _ _ (.group label) := fresh
      exact (real.makeGroup ⟨label, line, label⟩ absent).addRoot stands
    · exact Option.isSome_iff_exists.mpr ⟨_, fresh⟩

theorem Realizes.entry (real : builder.Realizes plan) {parent : String} {above : Nat}
    (found : builder.containers.lookup parent = some above) (label : String) (line : Int) :
    ((builder.newCell label line (leafKey parent label line)).2.append above
        (builder.newCell label line (leafKey parent label line)).1).Realizes
      (plan.perform (.entry parent label line)) := by
  have made := real.newCell label line (leafKey parent label line)
  have holds := real.holds_newCell ⟨label, line, leafKey parent label line⟩
  apply made.append found holds
  · intro under there
    have same := Option.some.inj (there.symm.trans holds.1)
    rw [same]
    exact leafKey_length_lt parent label line
  · rw [holds.1]
    rfl

theorem Realizes.addBelow (real : builder.Realizes plan) (line : Int) (parent : String)
    (labels : List String) (known : (builder.containers.lookup parent).isSome = true) :
    ∃ next, addBelow line parent labels builder = .ok next ∧
      next.Realizes (plan.run (stepsBelow line parent labels)) ∧
      next.separator = builder.separator := by
  induction labels generalizing builder plan parent with
  | nil => exact ⟨builder, rfl, real, rfl⟩
  | cons label rest ih =>
      obtain ⟨above, found⟩ := Option.isSome_iff_exists.mp known
      cases rest with
      | nil =>
          refine ⟨_, ?_, real.entry found label line, rfl⟩
          simp only [Builder.addBelow, Builder.newCell, found]
      | cons next rest =>
          obtain ⟨realFound, indexed, kept, sameSeparator⟩ :=
            real.container label line (containerKey parent label)
          have parentStays := kept.index parent above found
          have realOffered := realFound.offer parentStays indexed
            (containerKey_length_lt parent label)
          have offered : ∀ other : Builder, ∀ child key,
              (other.offer above child key).containers = other.containers ∧
                (other.offer above child key).separator = other.separator := by
            intro other child key
            unfold Builder.offer
            split <;> exact ⟨rfl, rfl⟩
          obtain ⟨last, done, realLast, lastSeparator⟩ :=
            ih realOffered (containerKey parent label)
              (by rw [(offered _ _ _).1, indexed]; rfl)
          refine ⟨last, ?_, realLast, ?_⟩
          · simp only [Builder.addBelow, parentStays]
            exact done
          · rw [lastSeparator, (offered _ _ _).2, sameSeparator]

theorem Realizes.addPath (real : builder.Realizes plan) (labels : List String) (line : Int)
    (some_label : labels ≠ []) :
    ∃ next, builder.addPath labels line = .ok next ∧
      next.Realizes (plan.run (pathSteps line labels)) ∧
      next.separator = builder.separator := by
  cases labels with
  | nil => exact absurd rfl some_label
  | cons top rest =>
      obtain ⟨realTop, known, topSeparator⟩ := real.topContainer top line
      obtain ⟨next, done, realNext, sameSeparator⟩ := realTop.addBelow line top rest known
      exact ⟨next, done, realNext, sameSeparator.trans topSeparator⟩

theorem add_of_token {separator : String} (token : builder.separator = .token separator)
    (nonempty : separator ≠ "") (label : String) (line : Int) :
    builder.add label line =
      if Text.contains label separator then builder.addPath (segments separator label) line
      else .ok (builder.addFlat label line) := by
  rw [Builder.add, token]
  split
  · rename_i value same
    cases same
  · rename_i same
    exact absurd (Separator.token.inj same) nonempty
  · rename_i other _ same
    rw [Separator.token.inj same]

theorem Realizes.add (real : builder.Realizes plan) {separator : String}
    (token : builder.separator = .token separator) (nonempty : separator ≠ "")
    (pair : String × Int) :
    ∃ next, builder.add pair.1 pair.2 = .ok next ∧
      next.Realizes (plan.run (stepsOf separator pair)) ∧ next.separator = builder.separator := by
  rw [add_of_token token nonempty, stepsOf]
  split
  · exact real.addPath _ _ (segments_ne_nil separator pair.1)
  · refine ⟨_, rfl, ?_, rfl⟩
    exact (real.newCell pair.1 pair.2 pair.1).addRoot
      (real.holds_newCell ⟨pair.1, pair.2, pair.1⟩)

theorem Realizes.addAll (real : builder.Realizes plan) {separator : String}
    (token : builder.separator = .token separator) (nonempty : separator ≠ "")
    (pairs : List (String × Int)) :
    ∃ next, builder.addAll pairs = (next, none) ∧
      next.Realizes (plan.run (pairs.flatMap (stepsOf separator))) ∧
      next.separator = builder.separator := by
  induction pairs generalizing builder plan with
  | nil => exact ⟨builder, rfl, real, rfl⟩
  | cons pair pairs ih =>
      obtain ⟨next, done, realNext, sameSeparator⟩ := real.add token nonempty pair
      obtain ⟨last, allDone, realLast, lastSeparator⟩ := ih realNext (sameSeparator.trans token)
      refine ⟨last, ?_, ?_, lastSeparator.trans sameSeparator⟩
      · rw [Builder.addAll, done]
        exact allDone
      · rw [List.flatMap_cons, Plan.run_append]
        exact realLast

theorem realizes_reset (builder : Builder) (grows : Grows builder.cells) :
    builder.reset.Realizes .empty where
  grows := grows
  group := by
    intro key id found
    cases found
  missing := fun _ _ => ⟨rfl, rfl⟩
  roots := .nil

theorem build_realizes (builder : Builder) (grows : Grows builder.cells) {separator : String}
    (token : builder.separator = .token separator) (nonempty : separator ≠ "")
    (pairs : List (String × Int)) :
    ∃ next, builder.build pairs = (next, none) ∧ next.Realizes (.ofPairs separator pairs) ∧
      next.separator = builder.separator :=
  (realizes_reset builder grows).addAll token nonempty pairs

end CommentOutline.Outline.Builder

namespace CommentOutline.Outline

open List (Forall₂)

theorem buildForest_eq_forest {separator : String} (nonempty : separator ≠ "")
    (pairs : List (String × Int)) :
    ∃ builder : Builder, buildForest (.token separator) pairs = .ok builder.forest ∧
      builder.Realizes (.ofPairs separator pairs) := by
  obtain ⟨builder, done, real, -⟩ :=
    (Builder.start (.token separator)).build_realizes Grows.nil rfl nonempty pairs
  exact ⟨builder, by rw [buildForest, done], real⟩

/-! ### One plan, one forest -/

namespace Builder

variable {builder other : Builder} {plan : Plan}

theorem view_eq_of_holds (grows : Grows builder.cells) (growsOther : Grows other.cells)
    {ids ids' : List Nat} {slots : List Slot} (holds : Forall₂ builder.Holds ids slots)
    (holdsOther : Forall₂ other.Holds ids' slots)
    (same : ∀ id ∈ ids, ∀ slot id', builder.Holds id slot → other.Holds id' slot →
      builder.nodeAt? id = other.nodeAt? id') : builder.view ids = other.view ids' := by
  rw [view_eq_filterMap builder grows, view_eq_filterMap other growsOther]
  induction holds generalizing ids' with
  | nil =>
      cases holdsOther
      rfl
  | @cons id slot ids slots first _ ih =>
      obtain ⟨id', rest, firstOther, restOther, rfl⟩ := List.forall₂_cons_right_iff.mp holdsOther
      have sameFirst := same id List.mem_cons_self slot id' first firstOther
      have sameRest := ih restOther fun later inside => same later (List.mem_cons_of_mem _ inside)
      rw [List.filterMap_cons, List.filterMap_cons, sameFirst, sameRest]

theorem Realizes.nodeAt?_eq (real : builder.Realizes plan) (realOther : other.Realizes plan)
    (id : Nat) : ∀ slot id', builder.Holds id slot → other.Holds id' slot →
      builder.nodeAt? id = other.nodeAt? id' := by
  induction id using real.grows.induction with
  | step id below =>
      intro slot id' holds holdsOther
      cases slot with
      | entry brief =>
          have childless : builder.view [] = other.view [] := by
            rw [view_eq_filterMap builder real.grows, view_eq_filterMap other realOther.grows]
            rfl
          rw [nodeAt?_of_cell builder holds.1, nodeAt?_of_cell other holdsOther.1, childless]
      | group key =>
          obtain ⟨cell, present, carries⟩ := real.group key id holds
          obtain ⟨cell', present', carries'⟩ := realOther.group key id' holdsOther
          have children := view_eq_of_holds real.grows realOther.grows carries.children
            carries'.children fun child inside => below cell present child inside
          have briefs := carries.named.symm.trans carries'.named
          rw [Option.some.injEq, Cell.brief, Cell.brief, Brief.mk.injEq] at briefs
          rw [nodeAt?_of_cell builder present, nodeAt?_of_cell other present', children, briefs.1,
            briefs.2.1, briefs.2.2]

/-- Builders that realize one plan show one forest, however they came to it. -/
theorem Realizes.forest_eq (real : builder.Realizes plan) (realOther : other.Realizes plan) :
    builder.forest = other.forest :=
  view_eq_of_holds real.grows realOther.grows real.roots realOther.roots fun id _ =>
    real.nodeAt?_eq realOther id

theorem Realizes.buildForest_eq {separator : String} {pairs : List (String × Int)}
    (real : builder.Realizes (.ofPairs separator pairs)) (nonempty : separator ≠ "") :
    buildForest (.token separator) pairs = .ok builder.forest := by
  obtain ⟨fresh, built, realFresh⟩ := buildForest_eq_forest nonempty pairs
  rw [built, realFresh.forest_eq real]

end Builder

end CommentOutline.Outline
