import CommentOutline.Proofs.Outline.History

set_option autoImplicit false

/-! The way of an annotation through an outline. On its way down an annotation is led through one
group after the other, each of them found in the index or made there and then. Whatever is added
later, these groups are found by the keys of the labels that lead to them. -/

namespace CommentOutline.Outline.Builder

/-- The cells of the groups that the labels below a group lead through. -/
def trailBelow (line : Int) : (parent : String) → List String → Builder → List Nat
  | _, [], _ => []
  | _, [_], _ => []
  | parent, label :: next :: rest, builder =>
      let key := containerKey parent label
      let found := builder.container label line key
      match found.2.containers.lookup parent with
      | some above =>
          found.1 :: trailBelow line key (next :: rest) (found.2.offer above found.1 key)
      | none => []

def pathTrail (builder : Builder) (labels : List String) (line : Int) : List Nat :=
  match labels with
  | top :: next :: rest =>
      let opened := builder.topContainer top line
      (opened.containers.lookup top).toList ++ trailBelow line top (next :: rest) opened
  | _ => []

/-- The cells of the groups that an annotation is led through if it is added now. -/
def trail (builder : Builder) (label : String) (line : Int) : List Nat :=
  match builder.separator with
  | .token separator =>
      if Text.contains label separator then builder.pathTrail (segments separator label) line
      else []
  | .notText _ => []

/-- Every annotation with its trail, as one after the other is added. -/
def trails (builder : Builder) : List (String × Int) → List ((String × Int) × List Nat)
  | [] => []
  | (label, line) :: pairs =>
      ((label, line), builder.trail label line) ::
        match builder.add label line with
        | .ok next => next.trails pairs
        | .error _ => []

variable {builder next : Builder}

/-! ### Groups on a trail -/

theorem length_trailBelow (sound : builder.Sound) (line : Int) (parent : String)
    (labels : List String) (known : (builder.containers.lookup parent).isSome = true) :
    (trailBelow line parent labels builder).length = labels.length - 1 := by
  induction labels generalizing builder parent with
  | nil => rfl
  | cons label rest ih =>
      obtain ⟨above, found⟩ := Option.isSome_iff_exists.mp known
      cases rest with
      | nil => rfl
      | cons next rest =>
          obtain ⟨parentStays, hung, indexed⟩ := sound.changes_hang found label line rfl
          have below := ih (hung.sound sound) (containerKey parent label)
            (Option.isSome_iff_exists.mpr ⟨_, indexed⟩)
          simp only [trailBelow, parentStays, List.length_cons, below]
          omega

theorem Sound.lookup_addBelow (sound : builder.Sound) {line : Int} {parent : String}
    {labels : List String} (known : (builder.containers.lookup parent).isSome = true)
    (added : addBelow line parent labels builder = .ok next) {key : String} {id : Nat}
    (found : builder.containers.lookup key = some id) :
    next.containers.lookup key = some id := by
  obtain ⟨last, done, changes⟩ := sound.changes_addBelow line parent labels known
  cases added.symm.trans done
  exact changes.lookup found

theorem lookup_of_mem_trailBelow (sound : builder.Sound) (line : Int) (done labels : List String)
    (begun : done ≠ []) (known : (builder.containers.lookup (pathKey done)).isSome = true)
    (added : addBelow line (pathKey done) labels builder = .ok next) (depth id : Nat)
    (here : (trailBelow line (pathKey done) labels builder)[depth]? = some id) :
    next.containers.lookup (pathKey (done ++ labels.take (depth + 1))) = some id := by
  induction labels generalizing builder done depth with
  | nil => cases here
  | cons label rest ih =>
      obtain ⟨above, found⟩ := Option.isSome_iff_exists.mp known
      cases rest with
      | nil => cases here
      | cons second rest =>
          obtain ⟨parentStays, hung, indexed⟩ := sound.changes_hang found label line rfl
          have soundHung := hung.sound sound
          have knownHung := Option.isSome_iff_exists.mpr ⟨_, indexed⟩
          simp only [addBelow, parentStays] at added
          simp only [trailBelow, parentStays] at here
          rw [← pathKey_concat done label begun] at added here indexed soundHung knownHung
          cases depth with
          | zero =>
              rw [List.getElem?_cons_zero, Option.some.injEq] at here
              rw [List.take_succ_cons, List.take_zero, ← here]
              exact soundHung.lookup_addBelow knownHung added indexed
          | succ depth =>
              rw [List.getElem?_cons_succ] at here
              rw [List.take_succ_cons, List.append_cons]
              exact ih soundHung (done ++ [label]) (by simp) knownHung added depth here

/-- A trail goes through one group for each label but the last, found by the labels up to it. -/
structure Marks (builder : Builder) (labels : List String) (ids : List Nat) : Prop where
  length : ids.length = labels.length - 1
  found : ∀ depth id : Nat, ids[depth]? = some id →
    builder.containers.lookup (pathKey (labels.take (depth + 1))) = some id

theorem Marks.later {labels : List String} {ids : List Nat} (marks : builder.Marks labels ids)
    (changes : Changes builder next) : next.Marks labels ids where
  length := marks.length
  found := fun depth id here => changes.lookup (marks.found depth id here)

theorem Sound.marks_pathTrail (sound : builder.Sound) {labels : List String} (line : Int)
    (added : builder.addPath labels line = .ok next) :
    next.Marks labels (builder.pathTrail labels line) := by
  match labels with
  | [] => cases added
  | [top] => exact ⟨rfl, fun _ _ here => nomatch here⟩
  | top :: second :: rest =>
      obtain ⟨opened, known⟩ := changes_topContainer builder top line
      obtain ⟨id, found⟩ := Option.isSome_iff_exists.mp known
      have soundTop := opened.sound sound
      rw [pathTrail, found, Option.toList_some, List.singleton_append]
      constructor
      · rw [List.length_cons, length_trailBelow soundTop line top _ known]
        rfl
      · intro depth other here
        cases depth with
        | zero =>
            rw [List.getElem?_cons_zero, Option.some.injEq] at here
            rw [List.take_succ_cons, List.take_zero, pathKey_singleton, ← here]
            exact soundTop.lookup_addBelow known added found
        | succ depth =>
            rw [List.getElem?_cons_succ] at here
            rw [← pathKey_singleton top] at known here
            rw [addPath, ← pathKey_singleton top] at added
            exact lookup_of_mem_trailBelow soundTop line [top] _ (by simp) known added depth other
              here

/-- The labels that lead an annotation through groups, the label of its entry included. -/
def pathLabels (separator raw : String) : List String :=
  if Text.contains raw separator then segments separator raw else []

theorem Sound.marks_trail (sound : builder.Sound) {separator : String}
    (token : builder.separator = .token separator) (nonempty : separator ≠ "") (label : String)
    (line : Int) (added : builder.add label line = .ok next) :
    next.Marks (pathLabels separator label) (builder.trail label line) := by
  rw [add_of_token token nonempty] at added
  rw [trail, token, pathLabels]
  by_cases cut : Text.contains label separator = true
  · rw [if_pos cut] at added
    simp only [if_pos cut]
    exact sound.marks_pathTrail line added
  · simp only [if_neg cut]
    exact ⟨rfl, fun _ _ here => nomatch here⟩

/-- When all annotations are added, the groups on each trail are found by the keys of the labels
that led to them. -/
theorem Sound.marks_trails (sound : builder.Sound) {separator : String}
    (token : builder.separator = .token separator) (nonempty : separator ≠ "")
    (pairs : List (String × Int)) :
    (builder.trails pairs).map Prod.fst = pairs ∧
      ∀ way ∈ builder.trails pairs,
        (builder.addAll pairs).1.Marks (pathLabels separator way.1.1) way.2 := by
  induction pairs generalizing builder with
  | nil => exact ⟨rfl, fun _ member => nomatch member⟩
  | cons pair pairs ih =>
      have cuts : builder.separator.Cuts := by
        rw [token]
        exact nonempty
      rcases sound.changes_add pair.1 pair.2 with ⟨last, added, changes⟩ | ⟨blunt, -⟩
      · have soundNext := changes.sound sound
        obtain ⟨listed, marks⟩ := ih soundNext (changes.separator_eq.trans token)
        rw [trails, addAll, added, List.map_cons, listed]
        refine ⟨rfl, ?_⟩
        intro way member
        rcases List.mem_cons.mp member with rfl | later
        · exact (sound.marks_trail token nonempty pair.1 pair.2 added).later
            (soundNext.changes_addAll pairs).1
        · exact marks way later
      · exact absurd cuts blunt

end CommentOutline.Outline.Builder
