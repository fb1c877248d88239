import CommentOutline.Proofs.Outline.Grouping
import CommentOutline.Proofs.Outline.Realization

set_option autoImplicit false

/-! What one route does to a plan. It names the groups on its way, and below each of them it leaves
at most one thing: the next group, unless that is there already, or the entry. Plain labels never
let two paths meet in one key, so nothing else changes. -/

namespace CommentOutline.Outline

open Route

/-- The places below a path, each at the first route that needs it. -/
def slotsBelow (path : List String) : List Route → List Slot
  | [] => []
  | ⟨[], _⟩ :: routes => slotsBelow path routes
  | ⟨[label], line⟩ :: routes =>
      .entry ⟨label, line, entryKey path label line⟩ :: slotsBelow path routes
  | ⟨label :: _ :: _, _⟩ :: routes =>
      .group (pathKey (path ++ [label])) :: slotsBelow path (passing label routes)
termination_by routes => routes.length
decreasing_by
  · exact Nat.lt_succ_self _
  · exact Nat.lt_succ_self _
  · exact Nat.lt_succ_of_le (List.length_filter_le _ _)

/-- The places that one more route adds below a path, when groups may be there already. -/
def lastSlots (path : List String) (route : Route) (isThere : String → Bool) : List Slot :=
  match route with
  | ⟨[], _⟩ => []
  | ⟨[label], line⟩ => [.entry ⟨label, line, entryKey path label line⟩]
  | ⟨label :: _ :: _, _⟩ => if isThere label then [] else [.group (pathKey (path ++ [label]))]

theorem lastSlots_congr (path : List String) (route : Route) (isThere isThere' : String → Bool)
    (agree : ∀ label left, route.after? label = some left → isThere label = isThere' label) :
    lastSlots path route isThere = lastSlots path route isThere' := by
  obtain ⟨labels, line⟩ := route
  match labels with
  | [] => rfl
  | [label] => rfl
  | label :: next :: rest =>
      have same := agree label ⟨next :: rest, line⟩ (if_pos rfl)
      rw [lastSlots, lastSlots, same]

theorem lastSlots_of_there (path : List String) (route left : Route) (label : String)
    (isThere : String → Bool) (goes : route.after? label = some left)
    (there : isThere label = true) : lastSlots path route isThere = [] := by
  obtain ⟨labels, line⟩ := route
  rw [after?_eq_some_iff] at goes
  obtain ⟨front, going, -⟩ := goes
  obtain ⟨next, rest, more⟩ := List.exists_cons_of_ne_nil going
  simp only at front
  rw [front, more, lastSlots, if_pos there]

theorem slotsBelow_concat (path : List String) (routes : List Route) (route : Route) :
    slotsBelow path (routes ++ [route]) =
      slotsBelow path routes ++
        lastSlots path route fun label => !(joining label routes).isEmpty := by
  fun_induction slotsBelow path routes with
  | case1 =>
      obtain ⟨labels, line⟩ := route
      match labels with
      | [] => simp [slotsBelow, lastSlots]
      | [label] => simp [slotsBelow, lastSlots]
      | label :: next :: rest => simp [slotsBelow, lastSlots, joining, passing]
  | case2 line routes ih =>
      rw [List.cons_append, slotsBelow, ih]
      rfl
  | case3 label line routes ih =>
      rw [List.cons_append, slotsBelow, ih]
      rfl
  | case4 label next rest line routes ih =>
      rw [List.cons_append, slotsBelow, passing, List.filter_append, List.cons_append]
      congr 1
      cases goes : route.after? label with
      | some left =>
          rw [List.filter_cons_of_neg (by simp [goes]), List.filter_nil, List.append_nil,
            lastSlots_of_there path route left label _ goes, List.append_nil]
          · rfl
          · rw [joining_cons_self]
            rfl
      | none =>
          rw [List.filter_cons_of_pos (by simp [goes]), List.filter_nil]
          refine ih.trans ?_
          congr 1
          apply lastSlots_congr
          intro other left through
          have differs : label ≠ other := by
            rintro rfl
            rw [goes] at through
            cases through
          rw [joining_passing_other differs, joining_cons_of_none]
          exact if_neg differs

/-! ### Plain routes -/

structure Route.Plain (route : Route) : Prop where
  going : route.labels ≠ []
  labels : PlainPath route.labels

theorem Route.plain_ofPair (pair : String × Int) : (Route.ofPair pair).Plain where
  going := going_ofPair pair
  labels := by
    cases cut : Text.contains pair.1 "::" with
    | true =>
        rw [labels_ofPair cut]
        exact segments_plain pair.1
    | false =>
        rw [labels_ofPair_flat cut]
        exact Outline.Plain.path cut

theorem Route.Plain.afterAll? {route left : Route} (plain : route.Plain) {path : List String}
    (behind : route.afterAll? path = some left) : left.Plain := by
  obtain ⟨split, going, -⟩ := (afterAll?_eq_some_iff path route left plain.going).mp behind
  refine ⟨going, fun label member => plain.labels label ?_⟩
  rw [split]
  exact List.mem_append_right _ member

theorem Route.Plain.label_of_after? {route left : Route} (plain : route.Plain) {label : String}
    (goes : route.after? label = some left) : Outline.Plain label := by
  apply plain.labels
  rw [((after?_eq_some_iff label route left).mp goes).1]
  exact List.mem_cons_self

theorem Route.Plain.front {route : Route} (plain : route.Plain) {path left : List String}
    {label : String} (split : route.labels = path ++ label :: left) :
    PlainPath (path ++ [label]) := by
  intro one inside
  apply plain.labels
  rw [split, List.append_cons]
  exact List.mem_append_left _ inside

theorem entryKey_eq_leafKey (path : List String) (label : String) (line : Int)
    (nonempty : path ≠ []) : entryKey path label line = leafKey (pathKey path) label line := by
  obtain ⟨top, rest, rfl⟩ := List.exists_cons_of_ne_nil nonempty
  have tag : (" :: line number " : String) = keyJoiner ++ leafTag := by decide
  rw [entryKey, pathKey_concat _ _ nonempty, tag, leafKey]
  simp only [String.append_assoc]

theorem any_slotsBelow (path : List String) (label : String) (nonempty : path ≠ [])
    (plainPath : PlainPath path) (plainLabel : Plain label) (routes : List Route)
    (plain : ∀ route ∈ routes, route.Plain) :
    ((slotsBelow path routes).any fun slot => slot.key == pathKey (path ++ [label])) =
      !(joining label routes).isEmpty := by
  fun_induction slotsBelow path routes with
  | case1 => rfl
  | case2 line routes ih =>
      rw [joining_cons_of_none rfl]
      exact ih fun route member => plain route (List.mem_cons_of_mem _ member)
  | case3 other line routes ih =>
      have plainOther := (plain _ List.mem_cons_self).labels other List.mem_cons_self
      have differs : (Slot.entry ⟨other, line, entryKey path other line⟩).key ≠
          pathKey (path ++ [label]) := by
        rw [Slot.key, entryKey_eq_leafKey path other line nonempty]
        exact leafKey_ne_pathKey nonempty plainPath plainOther plainLabel line
      rw [joining_cons_of_none rfl, List.any_cons,
        ih fun route member => plain route (List.mem_cons_of_mem _ member),
        beq_eq_false_iff_ne.mpr differs, Bool.false_or]
  | case4 other next rest line routes ih =>
      have plainRest : ∀ route ∈ passing other routes, route.Plain := fun route member =>
        plain route (List.mem_cons_of_mem _ (List.mem_of_mem_filter member))
      rw [List.any_cons, ih plainRest]
      by_cases same : other = label
      · subst other
        rw [joining_cons_self, joining_passing_self, Slot.key, beq_self_eq_true, Bool.true_or]
        rfl
      · have plainOther := (plain _ List.mem_cons_self).labels other List.mem_cons_self
        have differs : (Slot.group (pathKey (path ++ [other]))).key ≠
            pathKey (path ++ [label]) := fun sameKey =>
          same (pathKey_concat_injective (plainPath.concat plainOther)
            (plainPath.concat plainLabel) sameKey).2
        have around : Route.after? label ⟨other :: next :: rest, line⟩ = none := if_neg same
        rw [joining_passing_other same, joining_cons_of_none around,
          beq_eq_false_iff_ne.mpr differs, Bool.false_or]

/-! ### What the steps of a route do -/

def Route.steps : Route → List Step
  | ⟨[], _⟩ => []
  | ⟨[label], line⟩ => [.flat label line]
  | ⟨top :: next :: rest, line⟩ => pathSteps line (top :: next :: rest)

theorem Route.steps_ofPair (pair : String × Int) :
    (Route.ofPair pair).steps = stepsOf "::" pair := by
  unfold Route.ofPair stepsOf
  split
  · rename_i cut
    obtain ⟨top, next, rest, labels⟩ := exists_segments_of_contains (by decide) cut
    rw [labels]
    rfl
  · rfl

theorem below_run_elsewhere {path rest : List String} {line : Int} (plan : Plan)
    (done : List String) (nonempty : path ≠ []) (begun : done ≠ []) (plainPath : PlainPath path)
    (plain : PlainPath (done ++ rest)) (elsewhere : ¬ done <+: path) :
    (plan.run (stepsBelow line (pathKey done) rest)).below (pathKey path) =
      plan.below (pathKey path) := by
  have differs : ∀ more : List String, PlainPath (done ++ more) →
      pathKey path ≠ pathKey (done ++ more) := by
    intro more plainMore same
    rw [pathKey_injective plainPath plainMore nonempty (by simp [begun]) same] at elsewhere
    exact elsewhere (List.prefix_append done more)
  induction rest generalizing done plan with
  | nil => rfl
  | cons label rest ih =>
      have here := differs [] (fun one member => plain one (by
        rw [List.append_nil] at member
        exact List.mem_append_left _ member))
      rw [List.append_nil] at here
      cases rest with
      | nil => exact Plan.below_put_other plan _ here
      | cons next rest =>
          have further : done ++ label :: next :: rest = (done ++ [label]) ++ next :: rest :=
            List.append_cons done label (next :: rest)
          rw [further] at plain
          have step := ih (plan.perform (.below (pathKey done) label line)) (done ++ [label])
            (by simp) plain
            (fun front => elsewhere ((List.prefix_append done [label]).trans front))
            (by
              intro more plainMore
              rw [List.append_assoc] at plainMore ⊢
              exact differs ([label] ++ more) plainMore)
          rw [stepsBelow_cons_cons line done label next rest begun]
          refine Eq.trans step ?_
          exact Plan.below_offer_other _ _ here

theorem below_run_here (plan : Plan) (line : Int) (done rest : List String) (begun : done ≠ [])
    (plain : PlainPath (done ++ rest)) :
    (plan.run (stepsBelow line (pathKey done) rest)).below (pathKey done) =
      plan.below (pathKey done) ++ lastSlots done ⟨rest, line⟩ fun label =>
        plan.hasBelow (pathKey done) (pathKey (done ++ [label])) := by
  match rest with
  | [] => exact (List.append_nil _).symm
  | [label] =>
      refine Eq.trans (Plan.below_put_self plan (pathKey done) _) ?_
      rw [← entryKey_eq_leafKey done label line begun]
      rfl
  | label :: next :: rest =>
      have plainDone : PlainPath done := plain.front
      have elsewhere : ¬ done ++ [label] <+: done := by
        intro front
        have lengths := front.length_le
        rw [List.length_append, List.length_singleton] at lengths
        omega
      rw [List.append_cons done label (next :: rest)] at plain
      rw [stepsBelow_cons_cons line done label next rest begun]
      change ((plan.perform (.below (pathKey done) label line)).run _).below _ = _
      rw [below_run_elsewhere _ _ begun (by simp) plainDone plain elsewhere, Plan.perform,
        Plan.below_offer_self, ← pathKey_concat done label begun]
      rfl

/-- Steps below a path put at most one thing below each path that goes on from it: what the route
has left there. -/
theorem below_run_stepsBelow {rest : List String} (plan : Plan) (line : Int)
    (done mid : List String) (begun : done ≠ []) (plainPath : PlainPath (done ++ mid))
    (plain : PlainPath (done ++ rest)) :
    (plan.run (stepsBelow line (pathKey done) rest)).below (pathKey (done ++ mid)) =
      plan.below (pathKey (done ++ mid)) ++
        (afterAll? mid ⟨rest, line⟩).elim [] fun left =>
          lastSlots (done ++ mid) left fun label =>
            plan.hasBelow (pathKey (done ++ mid)) (pathKey (done ++ mid ++ [label])) := by
  induction mid generalizing done rest plan with
  | nil =>
      rw [List.append_nil]
      exact below_run_here plan line done rest begun plain
  | cons first mid ih =>
      have apart : pathKey (done ++ first :: mid) ≠ pathKey done := by
        intro same
        have plainDone : PlainPath done := plain.front
        have joined := pathKey_injective plainPath plainDone (by simp) begun same
        have lengths := congrArg List.length joined
        simp at lengths
      match rest with
      | [] => exact (List.append_nil _).symm
      | [label] =>
          refine Eq.trans (Plan.below_put_other plan _ apart) ?_
          exact (List.append_nil _).symm
      | label :: next :: rest =>
          have kept : (plan.perform (.below (pathKey done) label line)).below
              (pathKey (done ++ first :: mid)) = plan.below (pathKey (done ++ first :: mid)) :=
            Plan.below_offer_other _ _ apart
          rw [List.append_cons done label (next :: rest)] at plain
          rw [stepsBelow_cons_cons line done label next rest begun]
          change ((plan.perform (.below (pathKey done) label line)).run _).below _ = _
          by_cases same : first = label
          · subst first
            have along := ih (plan.perform (.below (pathKey done) label line)) (done ++ [label])
              (by simp) (by rw [← List.append_cons]; exact plainPath) plain
            rw [← List.append_cons] at along
            rw [along, afterAll?, after?, if_pos rfl, Option.bind_some]
            simp only [Plan.hasBelow, kept]
          · have elsewhere : ¬ done ++ [label] <+: done ++ first :: mid := by
              intro front
              rw [List.prefix_append_right_inj, List.cons_prefix_cons] at front
              exact same front.1.symm
            rw [below_run_elsewhere _ _ (by simp) (by simp) plainPath plain elsewhere, kept,
              afterAll?, after?, if_neg fun back => same back.symm, Option.bind_none,
              Option.elim_none, List.append_nil]

theorem Route.below_steps {route : Route} (plan : Plan) (plain : route.Plain) {path : List String}
    (nonempty : path ≠ []) (plainPath : PlainPath path) :
    (plan.run route.steps).below (pathKey path) =
      plan.below (pathKey path) ++
        (route.afterAll? path).elim [] fun left =>
          lastSlots path left fun label =>
            plan.hasBelow (pathKey path) (pathKey (path ++ [label])) := by
  obtain ⟨labels, line⟩ := route
  obtain ⟨first, mid, rfl⟩ := List.exists_cons_of_ne_nil nonempty
  match labels, plain with
  | [], plain => exact absurd rfl plain.going
  | [label], _ => exact (List.append_nil _).symm
  | top :: next :: rest, plain =>
      have kept := Plan.below_top plan top line
      have opened : plan.run (Route.steps ⟨top :: next :: rest, line⟩) =
          (plan.perform (.top top line)).run (stepsBelow line (pathKey [top]) (next :: rest)) := by
        rw [pathKey_singleton]
        rfl
      rw [opened]
      by_cases same : first = top
      · subst first
        have along := below_run_stepsBelow (plan.perform (.top top line)) line [top]
          mid (List.cons_ne_nil _ _) plainPath plain.labels
        refine Eq.trans along ?_
        rw [afterAll?, after?, if_pos rfl, Option.bind_some, kept]
        simp only [Plan.hasBelow, kept, List.singleton_append]
      · have elsewhere : ¬ [top] <+: first :: mid := by
          intro front
          rw [List.cons_prefix_cons] at front
          exact same front.1.symm
        rw [below_run_elsewhere _ _ nonempty (by simp) plainPath plain.labels elsewhere, kept,
          afterAll?, after?, if_neg fun back => same back.symm, Option.bind_none,
          Option.elim_none, List.append_nil]

theorem roots_run_stepsBelow (plan : Plan) (line : Int) (parent : String) (labels : List String) :
    (plan.run (stepsBelow line parent labels)).roots = plan.roots := by
  fun_induction stepsBelow line parent labels generalizing plan with
  | case1 => rfl
  | case2 => rfl
  | case3 parent label next rest ih =>
      refine Eq.trans (ih (plan.perform (.below parent label line))) ?_
      rw [Plan.perform, Plan.offer]
      split <;> rfl

theorem mem_names_stepsBelow {done rest : List String} {line : Int} (begun : done ≠ [])
    (brief : Brief) :
    brief ∈ (stepsBelow line (pathKey done) rest).filterMap Step.names? ↔
      ∃ mid label left, rest = mid ++ label :: left ∧ left ≠ [] ∧
        brief = ⟨label, line, pathKey (done ++ mid ++ [label])⟩ := by
  induction rest generalizing done with
  | nil => simp [stepsBelow]
  | cons first rest ih =>
      cases rest with
      | nil =>
          simp only [stepsBelow, List.filterMap_cons, Step.names?, List.filterMap_nil,
            List.not_mem_nil, false_iff]
          intro given
          rcases given with ⟨mid, label, left, split, going, -⟩
          have lengths := congrArg List.length split
          have some_left := List.length_pos_iff.mpr going
          simp only [List.length_append, List.length_cons, List.length_nil] at lengths
          omega
      | cons next rest =>
          rw [stepsBelow_cons_cons line done first next rest begun, List.filterMap_cons,
            Step.names?, List.mem_cons, ih (by simp), ← pathKey_concat done first begun]
          constructor
          · intro given
            rcases given with rfl | ⟨mid, label, left, split, going, rfl⟩
            · exact ⟨[], first, next :: rest, rfl, List.cons_ne_nil _ _, by rw [List.append_nil]⟩
            · refine ⟨first :: mid, label, left, by rw [split, List.cons_append], going, ?_⟩
              rw [← List.append_cons]
          · intro given
            rcases given with ⟨mid, label, left, split, going, rfl⟩
            cases mid with
            | nil =>
                rw [List.nil_append, List.cons.injEq] at split
                rw [← split.1, List.append_nil]
                exact Or.inl rfl
            | cons second mid =>
                rw [List.cons_append, List.cons.injEq] at split
                refine Or.inr ⟨mid, label, left, split.2, going, ?_⟩
                rw [← split.1, ← List.append_cons]

theorem Route.mem_names_steps (route : Route) (brief : Brief) :
    brief ∈ route.steps.filterMap Step.names? ↔
      ∃ path label left, route.labels = path ++ label :: left ∧ left ≠ [] ∧
        brief = ⟨label, route.line, pathKey (path ++ [label])⟩ := by
  obtain ⟨labels, line⟩ := route
  have short : ∀ (path : List String) (label : String) (left : List String), left ≠ [] →
      2 ≤ (path ++ label :: left).length := by
    intro path label left going
    have some_left := List.length_pos_iff.mpr going
    rw [List.length_append, List.length_cons]
    omega
  have tooShort : labels.length < 2 → ¬ ∃ path label left, labels = path ++ label :: left ∧
      left ≠ [] ∧ brief = ⟨label, line, pathKey (path ++ [label])⟩ := by
    intro bounded given
    rcases given with ⟨path, label, left, split, going, -⟩
    have long := short path label left going
    rw [← split] at long
    omega
  match labels, tooShort with
  | [], tooShort =>
      exact iff_of_false List.not_mem_nil (tooShort (by rw [List.length_nil]; omega))
  | [_], tooShort =>
      exact iff_of_false List.not_mem_nil (tooShort (by rw [List.length_singleton]; omega))
  | top :: next :: rest, _ =>
      have single : pathKey [top] = top := pathKey_singleton top
      rw [Route.steps, pathSteps, List.filterMap_cons, Step.names?, List.mem_cons, ← single,
        mem_names_stepsBelow (List.cons_ne_nil _ _), single]
      constructor
      · intro given
        rcases given with rfl | ⟨mid, label, left, split, going, rfl⟩
        · exact ⟨[], top, next :: rest, rfl, List.cons_ne_nil _ _, by rw [List.nil_append, single]⟩
        · exact ⟨top :: mid, label, left, congrArg (top :: ·) split, going, rfl⟩
      · intro given
        rcases given with ⟨path, label, left, split, going, rfl⟩
        cases path with
        | nil =>
            rw [List.nil_append, List.cons.injEq] at split
            rw [← split.1, List.nil_append, single]
            exact Or.inl rfl
        | cons first mid =>
            rw [List.cons_append, List.cons.injEq] at split
            rw [← split.1]
            exact Or.inr ⟨mid, label, left, split.2, going, rfl⟩

theorem Route.find?_names_steps {route : Route} (plain : route.Plain) {path : List String}
    {label : String} (plainPath : PlainPath (path ++ [label])) :
    ((route.steps.filterMap Step.names?).find? fun brief =>
        brief.key == pathKey (path ++ [label])) =
      (route.afterAll? (path ++ [label])).map fun left =>
        ⟨label, left.line, pathKey (path ++ [label])⟩ := by
  cases behind : route.afterAll? (path ++ [label]) with
  | none =>
      rw [Option.map_none, List.find?_eq_none]
      intro brief member sameKey
      obtain ⟨path', label', left, split, going, rfl⟩ := (route.mem_names_steps brief).mp member
      obtain ⟨rfl, rfl⟩ :=
        pathKey_concat_injective (plain.front split) plainPath (beq_iff_eq.mp sameKey)
      have reached := (afterAll?_eq_some_iff (path' ++ [label']) route ⟨left, route.line⟩
        plain.going).mpr ⟨by rw [split, List.append_cons], going, rfl⟩
      rw [behind] at reached
      cases reached
  | some left =>
      obtain ⟨split, going, sameLine⟩ :=
        (afterAll?_eq_some_iff (path ++ [label]) route left plain.going).mp behind
      have named : (⟨label, route.line, pathKey (path ++ [label])⟩ : Brief) ∈
          route.steps.filterMap Step.names? :=
        (route.mem_names_steps _).mpr
          ⟨path, label, left.labels, by rw [split, ← List.append_cons], going, rfl⟩
      rw [Option.map_some, sameLine]
      cases found : (route.steps.filterMap Step.names?).find? fun brief =>
          brief.key == pathKey (path ++ [label]) with
      | none =>
          exact absurd (beq_self_eq_true _) (List.find?_eq_none.mp found _ named)
      | some brief =>
          have sameKey := List.find?_some found
          obtain ⟨path', label', left', split', -, rfl⟩ :=
            (route.mem_names_steps brief).mp (List.mem_of_find?_eq_some found)
          obtain ⟨rfl, rfl⟩ :=
            pathKey_concat_injective (plain.front split') plainPath (beq_iff_eq.mp sameKey)
          rfl

end CommentOutline.Outline
