import Mathlib.Data.List.Induction
import CommentOutline.Proofs.Outline.Places

set_option autoImplicit false

/-! Groups that a walk reaches, told from the steps. A group that is named at the top first is a
root. A group that is named below another one hangs there, unless an entry with its key stood there
first; a group that hangs nowhere else is lost with all that is below it. -/

namespace CommentOutline.Outline

/-- The groups that hang, directly or not, below a root. -/
inductive Reached (steps : List Step) : String → Prop
  | root {before after : List Step} {label : String} {line : Int} :
      steps = before ++ .top label line :: after →
      (∀ brief ∈ before.filterMap Step.names?, brief.key ≠ label) → Reached steps label
  | hung {before after : List Step} {parent label : String} {line : Int} :
      Reached steps parent → steps = before ++ .below parent label line :: after →
      (∀ leaf number, .entry parent leaf number ∈ before →
        leafKey parent leaf number ≠ containerKey parent label) →
      Reached steps (containerKey parent label)

namespace Plan

/-! ### What stands where -/

theorem run_concat (plan : Plan) (steps : List Step) (step : Step) :
    plan.run (steps ++ [step]) = (plan.run steps).perform step := by
  rw [run_append]
  rfl

theorem entry_mem_below_perform (plan : Plan) (step : Step) (parent : String) (brief : Brief) :
    .entry brief ∈ (plan.perform step).below parent ↔
      .entry brief ∈ plan.below parent ∨
        ∃ label line, step = .entry parent label line ∧
          brief = ⟨label, line, leafKey parent label line⟩ := by
  cases step with
  | flat label line => simp [perform, putRoot]
  | top label line =>
      have same : (plan.perform (.top label line)).below = plan.below := below_top plan label line
      simp [same]
  | below above label line =>
      have kept : .entry brief ∈ (plan.perform (.below above label line)).below parent ↔
          .entry brief ∈ plan.below parent := by
        by_cases here : parent = above
        · subst here
          rw [perform, below_offer_self, List.mem_append]
          constructor
          · intro given
            rcases given with front | back
            · exact front
            · split at back
              · cases back
              · cases List.mem_singleton.mp back
          · exact Or.inl
        · rw [perform, below_offer_other _ _ here]
          exact Iff.rfl
      simp [kept]
  | entry above label line =>
      by_cases here : parent = above
      · subst here
        rw [perform, below_put_self, List.mem_append, List.mem_singleton]
        simp [and_assoc]
      · rw [perform, below_put_other plan _ here]
        simp [Ne.symm here]

theorem entry_mem_below_iff (steps : List Step) (parent : String) (brief : Brief) :
    .entry brief ∈ (empty.run steps).below parent ↔
      ∃ label line, .entry parent label line ∈ steps ∧
        brief = ⟨label, line, leafKey parent label line⟩ := by
  induction steps using List.reverseRecOn with
  | nil => simp [run, empty]
  | append_singleton steps step ih =>
      rw [run_concat, entry_mem_below_perform, ih]
      constructor
      · intro given
        rcases given with ⟨label, line, member, same⟩ | ⟨label, line, rfl, same⟩
        · exact ⟨label, line, List.mem_append_left _ member, same⟩
        · exact ⟨label, line, List.mem_append_right _ List.mem_cons_self, same⟩
      · intro given
        rcases given with ⟨label, line, member, same⟩
        rcases List.mem_append.mp member with front | back
        · exact Or.inl ⟨label, line, front, same⟩
        · exact Or.inr ⟨label, line, (List.mem_singleton.mp back).symm, same⟩

theorem mem_below_perform (plan : Plan) (step : Step) {parent : String} {slot : Slot}
    (stands : slot ∈ plan.below parent) : slot ∈ (plan.perform step).below parent := by
  cases step with
  | flat label line => exact stands
  | top label line =>
      rw [below_top]
      exact stands
  | below above label line =>
      by_cases here : parent = above
      · subst here
        rw [perform, below_offer_self]
        exact List.mem_append_left _ stands
      · rw [perform, below_offer_other _ _ here]
        exact stands
  | entry above label line =>
      by_cases here : parent = above
      · subst here
        rw [perform, below_put_self]
        exact List.mem_append_left _ stands
      · rw [perform, below_put_other plan _ here]
        exact stands

theorem mem_below_run (plan : Plan) (steps : List Step) {parent : String} {slot : Slot}
    (stands : slot ∈ plan.below parent) : slot ∈ (plan.run steps).below parent := by
  induction steps generalizing plan with
  | nil => exact stands
  | cons step steps ih => exact ih (plan.perform step) (mem_below_perform plan step stands)

theorem group_mem_below_perform (plan : Plan) (step : Step) {parent key : String}
    (stands : .group key ∈ (plan.perform step).below parent) :
    .group key ∈ plan.below parent ∨
      ∃ label line, step = .below parent label line ∧ containerKey parent label = key ∧
        plan.hasBelow parent key = false := by
  cases step with
  | flat label line => exact Or.inl stands
  | top label line =>
      rw [below_top] at stands
      exact Or.inl stands
  | entry above label line =>
      by_cases here : parent = above
      · subst here
        rw [perform, below_put_self, List.mem_append] at stands
        rcases stands with front | back
        · exact Or.inl front
        · cases List.mem_singleton.mp back
      · rw [perform, below_put_other plan _ here] at stands
        exact Or.inl stands
  | below above label line =>
      by_cases here : parent = above
      · subst here
        rw [perform, below_offer_self, List.mem_append] at stands
        rcases stands with front | back
        · exact Or.inl front
        · split at back
          · cases back
          · rename_i absent
            cases List.mem_singleton.mp back
            exact Or.inr ⟨label, line, rfl, rfl, Bool.eq_false_iff.mpr absent⟩
      · rw [perform, below_offer_other _ _ here] at stands
        exact Or.inl stands

/-- A group hangs below another one if some step puts it there before any entry takes its key. -/
theorem group_mem_below_iff (steps : List Step) (parent key : String) :
    .group key ∈ (empty.run steps).below parent ↔
      ∃ before label line after, steps = before ++ .below parent label line :: after ∧
        containerKey parent label = key ∧
        ∀ leaf number, .entry parent leaf number ∈ before → leafKey parent leaf number ≠ key := by
  constructor
  · intro stands
    induction steps using List.reverseRecOn with
    | nil => cases stands
    | append_singleton steps step ih =>
        rw [run_concat] at stands
        rcases group_mem_below_perform _ step stands with already | ⟨label, line, rfl, same, absent⟩
        · obtain ⟨before, label, line, after, split, same, clear⟩ := ih already
          refine ⟨before, label, line, after ++ [step], ?_, same, clear⟩
          rw [split, List.append_assoc, List.cons_append]
        · refine ⟨steps, label, line, [], rfl, same, ?_⟩
          intro leaf number member sameKey
          have taken := (entry_mem_below_iff steps parent _).mpr ⟨leaf, number, member, rfl⟩
          rw [hasBelow, List.any_eq_false] at absent
          exact absent _ taken (beq_iff_eq.mpr sameKey)
  · intro given
    rcases given with ⟨before, label, line, after, rfl, rfl, clear⟩
    rw [List.append_cons, run_append, run_concat]
    apply mem_below_run
    rw [perform, below_offer_self, List.mem_append]
    have named : ((empty.run before).name ⟨label, line, containerKey parent label⟩).below =
        (empty.run before).below := rfl
    split
    · rename_i taken
      rw [hasBelow, named, List.any_eq_true] at taken
      obtain ⟨slot, stands, sameKey⟩ := taken
      cases slot with
      | entry brief =>
          obtain ⟨leaf, number, member, rfl⟩ := (entry_mem_below_iff before parent brief).mp stands
          exact absurd (beq_iff_eq.mp sameKey) (clear leaf number member)
      | group key =>
          rw [← beq_iff_eq.mp sameKey]
          exact Or.inl stands
    · exact Or.inr List.mem_cons_self

theorem mem_roots_perform (plan : Plan) (step : Step) (slot : Slot) :
    slot ∈ (plan.perform step).roots ↔
      slot ∈ plan.roots ∨
        (∃ label line, step = .flat label line ∧ slot = .entry ⟨label, line, label⟩) ∨
        ∃ label line, step = .top label line ∧ slot = .group label ∧ plan.group? label = none := by
  cases step with
  | flat label line => simp [perform, putRoot]
  | top label line =>
      rw [perform]
      split
      · rename_i known
        obtain ⟨first, found⟩ := Option.isSome_iff_exists.mp known
        simp only [reduceCtorEq, false_and, exists_false, false_or, Step.top.injEq]
        constructor
        · exact Or.inl
        · intro given
          rcases given with already | ⟨other, number, ⟨rfl, rfl⟩, -, absent⟩
          · exact already
          · rw [found] at absent
            cases absent
      · rename_i unknown
        rw [Bool.not_eq_true, Option.isSome_eq_false_iff, Option.isNone_iff_eq_none] at unknown
        simp only [name, putRoot, List.mem_append, List.mem_singleton, reduceCtorEq, false_and,
          exists_false, false_or, Step.top.injEq]
        constructor
        · intro given
          rcases given with already | rfl
          · exact Or.inl already
          · exact Or.inr ⟨label, line, ⟨rfl, rfl⟩, rfl, unknown⟩
        · intro given
          rcases given with already | ⟨other, number, ⟨rfl, rfl⟩, rfl, -⟩
          · exact Or.inl already
          · exact Or.inr rfl
  | below above label line =>
      have kept : (plan.perform (.below above label line)).roots = plan.roots := by
        rw [perform, offer]
        split <;> rfl
      simp [kept]
  | entry above label line => simp [perform, put]

theorem group?_eq_none_iff (steps : List Step) (label : String) :
    (empty.run steps).group? label = none ↔
      ∀ brief ∈ steps.filterMap Step.names?, brief.key ≠ label := by
  have fresh : empty.group? label = none := rfl
  rw [group?_run, fresh, Option.none_or, List.find?_eq_none]
  simp only [beq_iff_eq, ne_eq]

theorem mem_roots_iff (steps : List Step) (slot : Slot) :
    slot ∈ (empty.run steps).roots ↔
      (∃ label line, .flat label line ∈ steps ∧ slot = .entry ⟨label, line, label⟩) ∨
        ∃ before label line after, steps = before ++ .top label line :: after ∧
          slot = .group label ∧ ∀ brief ∈ before.filterMap Step.names?, brief.key ≠ label := by
  induction steps using List.reverseRecOn with
  | nil => simp [run, empty]
  | append_singleton steps step ih =>
      rw [run_concat]
      refine (mem_roots_perform _ step slot).trans ((or_congr_left ih).trans ?_)
      constructor
      · intro given
        rcases given with
          (⟨label, line, member, same⟩ | ⟨before, label, line, after, split, same, clear⟩) |
          ⟨label, line, rfl, same⟩ | ⟨label, line, rfl, same, unknown⟩
        · exact Or.inl ⟨label, line, List.mem_append_left _ member, same⟩
        · refine Or.inr ⟨before, label, line, after ++ [step], ?_, same, clear⟩
          rw [split, List.append_assoc, List.cons_append]
        · exact Or.inl ⟨label, line, List.mem_append_right _ List.mem_cons_self, same⟩
        · have clear := (group?_eq_none_iff steps label).mp unknown
          exact Or.inr ⟨steps, label, line, [], rfl, same, clear⟩
      · intro given
        rcases given with
          ⟨label, line, member, same⟩ | ⟨before, label, line, after, split, same, clear⟩
        · rcases List.mem_append.mp member with front | back
          · exact Or.inl (Or.inl ⟨label, line, front, same⟩)
          · exact Or.inr (Or.inl ⟨label, line, (List.mem_singleton.mp back).symm, same⟩)
        · rcases List.eq_nil_or_concat after with rfl | ⟨after, last, rfl⟩
          · obtain ⟨rfl, here⟩ := List.append_inj' split rfl
            have ended := List.head_eq_of_cons_eq here
            have unknown := (group?_eq_none_iff steps label).mpr clear
            exact Or.inr (Or.inr ⟨label, line, ended, same, unknown⟩)
          · rw [List.concat_eq_append, ← List.cons_append, ← List.append_assoc] at split
            obtain ⟨rfl, -⟩ := List.append_inj' split rfl
            exact Or.inl (Or.inr ⟨before, label, line, after, rfl, same, clear⟩)

/-! ### What is shown -/

theorem shown_group_iff (steps : List Step) (key : String) :
    (empty.run steps).Shown (.group key) ↔ Reached steps key := by
  constructor
  · intro shown
    suffices reached : ∀ slot, (empty.run steps).Shown slot →
        ∀ name, slot = .group name → Reached steps name from reached _ shown key rfl
    intro slot shown
    induction shown with
    | root stands =>
        rintro name rfl
        rcases (mem_roots_iff steps _).mp stands with
          ⟨label, line, -, same⟩ | ⟨before, label, line, after, split, same, clear⟩
        · cases same
        · cases same
          exact .root split clear
    | inside _ stands ih =>
        rintro name rfl
        obtain ⟨before, label, line, after, split, rfl, clear⟩ :=
          (group_mem_below_iff steps _ _).mp stands
        exact .hung (ih _ rfl) split clear
  · intro reached
    induction reached with
    | root split clear =>
        exact .root ((mem_roots_iff steps _).mpr (Or.inr ⟨_, _, _, _, split, rfl, clear⟩))
    | hung _ split clear ih =>
        exact .inside ih ((group_mem_below_iff steps _ _).mpr ⟨_, _, _, _, split, rfl, clear⟩)

theorem shown_entry_iff (steps : List Step) (brief : Brief) :
    (empty.run steps).Shown (.entry brief) ↔
      (∃ label line, .flat label line ∈ steps ∧ brief = ⟨label, line, label⟩) ∨
        ∃ parent label line, Reached steps parent ∧ .entry parent label line ∈ steps ∧
          brief = ⟨label, line, leafKey parent label line⟩ := by
  constructor
  · intro shown
    cases shown with
    | root stands =>
        rcases (mem_roots_iff steps _).mp stands with
          ⟨label, line, member, same⟩ | ⟨before, label, line, after, split, same, clear⟩
        · cases same
          exact Or.inl ⟨label, line, member, rfl⟩
        · cases same
    | @inside parent _ above stands =>
        obtain ⟨label, line, member, same⟩ := (entry_mem_below_iff steps parent brief).mp stands
        exact Or.inr ⟨parent, label, line, (shown_group_iff steps parent).mp above, member, same⟩
  · intro given
    rcases given with ⟨label, line, member, rfl⟩ | ⟨parent, label, line, reached, member, rfl⟩
    · exact .root ((mem_roots_iff steps _).mpr (Or.inl ⟨label, line, member, rfl⟩))
    · exact .inside ((shown_group_iff steps parent).mpr reached)
        ((entry_mem_below_iff steps parent _).mpr ⟨label, line, member, rfl⟩)

/-! ### No group stays empty -/

/-- Something stands below every group, apart perhaps from one. -/
def FullApart (plan : Plan) (parent : String) : Prop :=
  ∀ key, key ≠ parent → (plan.group? key).isSome = true → plan.below key ≠ []

theorem FullApart.full {plan : Plan} {parent : String} (apart : plan.FullApart parent)
    (stands : plan.below parent ≠ []) : plan.Full := by
  intro key known
  by_cases same : key = parent
  · rw [same]
    exact stands
  · exact apart key same known

theorem below_perform_ne_nil (plan : Plan) (step : Step) {key : String}
    (stands : plan.below key ≠ []) : (plan.perform step).below key ≠ [] := by
  obtain ⟨slot, member⟩ := List.exists_mem_of_ne_nil _ stands
  exact List.ne_nil_of_mem (mem_below_perform plan step member)

/-- A step fills up the group that it works on, and may leave the one that it names empty. -/
theorem FullApart.below {plan : Plan} {parent : String} (apart : plan.FullApart parent)
    (label : String) (line : Int) :
    (plan.perform (.below parent label line)).FullApart (containerKey parent label) := by
  intro key other known
  rw [group?_perform, Step.names?, Option.filter_some,
    if_neg (by simpa using fun same => other same.symm), Option.or_none] at known
  by_cases same : key = parent
  · rw [same, perform, below_offer_self]
    split
    · rename_i taken
      intro none
      rw [List.append_nil] at none
      rw [hasBelow, none] at taken
      cases taken
    · exact List.append_ne_nil_of_right_ne_nil _ (List.cons_ne_nil _ _)
  · exact below_perform_ne_nil plan _ (apart key same known)

theorem FullApart.stepsBelow {plan : Plan} {parent : String} (apart : plan.FullApart parent)
    (line : Int) {labels : List String} (going : labels ≠ []) :
    (plan.run (stepsBelow line parent labels)).Full := by
  induction labels generalizing plan parent with
  | nil => exact absurd rfl going
  | cons label rest ih =>
      cases rest with
      | nil =>
          have stands : (plan.perform (.entry parent label line)).below parent ≠ [] := by
            rw [perform, below_put_self]
            exact List.append_ne_nil_of_right_ne_nil _ (List.cons_ne_nil _ _)
          refine FullApart.full (fun key other known => ?_) stands
          exact below_perform_ne_nil plan (.entry parent label line) (apart key other known)
      | cons next rest => exact ih (apart.below label line) (List.cons_ne_nil _ _)

theorem Full.stepsOf {plan : Plan} (full : plan.Full) {separator : String}
    (nonempty : separator ≠ "") (pair : String × Int) :
    (plan.run (stepsOf separator pair)).Full := by
  rw [Outline.stepsOf]
  split
  · rename_i cut
    obtain ⟨top, next, rest, labels⟩ := exists_segments_of_contains nonempty cut
    have apart : (plan.perform (.top top pair.2)).FullApart top := by
      intro key other known
      rw [group?_perform, Step.names?, Option.filter_some,
        if_neg (by simpa using fun same => other same.symm), Option.or_none] at known
      exact below_perform_ne_nil plan _ (full key known)
    rw [labels]
    exact apart.stepsBelow pair.2 (List.cons_ne_nil next rest)
  · exact full

theorem ofPairs_full {separator : String} (nonempty : separator ≠ "")
    (pairs : List (String × Int)) : (ofPairs separator pairs).Full := by
  have run_full : ∀ (plan : Plan), plan.Full →
      (plan.run (pairs.flatMap (stepsOf separator))).Full := by
    induction pairs with
    | nil => exact fun plan full => full
    | cons pair pairs ih =>
        intro plan full
        rw [List.flatMap_cons, run_append]
        exact ih _ (full.stepsOf nonempty pair)
  apply run_full empty
  intro key known
  cases known

end Plan

end CommentOutline.Outline
