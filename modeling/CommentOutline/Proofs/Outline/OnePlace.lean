import CommentOutline.Proofs.Outline.Plan

set_option autoImplicit false

/-! One place for each group. Under labels without the standard separator a key tells the path that
it was made of, so every group of a plan stands once below the group one label above it, or once at
the top, and nowhere else. No entry takes that place, since the key of an entry has one label more
than the key of a group beside it. -/

namespace CommentOutline.Outline

/-- Not both are the same group. -/
def Slot.Apart (first second : Slot) : Prop := ∀ key, first = .group key → second ≠ .group key

theorem place_unique_of_apart {slots : List Slot} (apart : slots.Pairwise Slot.Apart) {key : String}
    {place other : Nat} (here : slots[place]? = some (.group key))
    (there : slots[other]? = some (.group key)) : place = other := by
  have ordered := List.pairwise_iff_getElem.mp apart
  obtain ⟨bound, isHere⟩ := List.getElem?_eq_some_iff.mp here
  obtain ⟨otherBound, isThere⟩ := List.getElem?_eq_some_iff.mp there
  rcases Nat.lt_trichotomy place other with lower | same | higher
  · exact absurd isThere (ordered place other bound otherBound lower key isHere)
  · exact same
  · exact absurd isHere (ordered other place otherBound bound higher key isThere)

namespace Plan

def slotsAt (plan : Plan) : List String → List Slot
  | [] => plan.roots
  | top :: rest => plan.below (pathKey (top :: rest))

def putAt (plan : Plan) (path : List String) (slot : Slot) : Plan :=
  match path with
  | [] => plan.putRoot slot
  | top :: rest => plan.put (pathKey (top :: rest)) slot

theorem slotsAt_eq_below (plan : Plan) {path : List String} (begun : path ≠ []) :
    plan.slotsAt path = plan.below (pathKey path) := by
  obtain ⟨top, rest, rfl⟩ := List.exists_cons_of_ne_nil begun
  rfl

theorem putAt_eq_put (plan : Plan) {path : List String} (begun : path ≠ []) (slot : Slot) :
    plan.putAt path slot = plan.put (pathKey path) slot := by
  obtain ⟨top, rest, rfl⟩ := List.exists_cons_of_ne_nil begun
  rfl

theorem group?_putAt (plan : Plan) (path : List String) (slot : Slot) (key : String) :
    (plan.putAt path slot).group? key = plan.group? key := by
  cases path <;> rfl

theorem slotsAt_name (plan : Plan) (brief : Brief) (path : List String) :
    (plan.name brief).slotsAt path = plan.slotsAt path := by
  cases path <;> rfl

theorem slotsAt_putAt_self (plan : Plan) (path : List String) (slot : Slot) :
    (plan.putAt path slot).slotsAt path = plan.slotsAt path ++ [slot] := by
  cases path with
  | nil => rfl
  | cons top rest => exact below_put_self plan _ slot

theorem slotsAt_putAt_other (plan : Plan) {path other : List String} (plain : PlainPath path)
    (plainOther : PlainPath other) (differs : other ≠ path) (slot : Slot) :
    (plan.putAt path slot).slotsAt other = plan.slotsAt other := by
  match path, other with
  | [], [] => exact absurd rfl differs
  | [], _ :: _ => rfl
  | _ :: _, [] => rfl
  | top :: rest, top' :: rest' =>
      apply below_put_other
      exact fun same => differs (pathKey_injective plainOther plain (by simp) (by simp) same)

theorem mem_slotsAt_putAt {plan : Plan} {path other : List String} (plain : PlainPath path)
    (plainOther : PlainPath other) {slot stands : Slot}
    (member : stands ∈ (plan.putAt path slot).slotsAt other) :
    stands ∈ plan.slotsAt other ∨ other = path ∧ stands = slot := by
  by_cases same : other = path
  · rw [same, slotsAt_putAt_self] at member
    rcases List.mem_append.mp member with old | new
    · exact Or.inl (same ▸ old)
    · exact Or.inr ⟨same, List.mem_singleton.mp new⟩
  · rw [slotsAt_putAt_other plan plain plainOther same] at member
    exact Or.inl member

theorem mem_slotsAt_putAt_of_mem {plan : Plan} {path other : List String} (plain : PlainPath path)
    (plainOther : PlainPath other) {stands : Slot} (member : stands ∈ plan.slotsAt other)
    (slot : Slot) : stands ∈ (plan.putAt path slot).slotsAt other := by
  by_cases same : other = path
  · rw [same, slotsAt_putAt_self]
    exact List.mem_append_left _ (same ▸ member)
  · rw [slotsAt_putAt_other plan plain plainOther same]
    exact member

/-- Every group stands at the end of its path, below a group that was named too; what stands below a
path has a key that is longer by a label, and by two if it is an entry; and no group stands twice in
one place. -/
structure Orderly (plan : Plan) : Prop where
  placed : ∀ key brief, plan.group? key = some brief →
    ∃ path, PlainPath (path ++ [brief.label]) ∧ key = pathKey (path ++ [brief.label]) ∧
      .group key ∈ plan.slotsAt path ∧
      (path ≠ [] → (plan.group? (pathKey path)).isSome = true)
  fitting : ∀ path key, PlainPath path → .group key ∈ plan.slotsAt path →
    ∃ label, Plain label ∧ key = pathKey (path ++ [label]) ∧ (plan.group? key).isSome = true
  longer : ∀ path brief, PlainPath path → path ≠ [] → .entry brief ∈ plan.slotsAt path →
    ∃ label line, Plain label ∧ brief.key = leafKey (pathKey path) label line
  single : ∀ path, PlainPath path → (plan.slotsAt path).Pairwise Slot.Apart

variable {plan : Plan}

theorem orderly_empty : empty.Orderly where
  placed := fun _ _ found => nomatch found
  fitting := by
    intro path key _ member
    cases path <;> cases member
  longer := by
    intro path brief _ _ member
    cases path <;> cases member
  single := by
    intro path _
    cases path <;> exact .nil

theorem Orderly.of_same (orderly : plan.Orderly) {next : Plan}
    (groups : ∀ key, next.group? key = plan.group? key)
    (slots : ∀ path, next.slotsAt path = plan.slotsAt path) : next.Orderly where
  placed := by
    intro key brief found
    rw [groups] at found
    obtain ⟨path, plain, keyed, stands, known⟩ := orderly.placed key brief found
    refine ⟨path, plain, keyed, (slots path).symm ▸ stands, fun begun => ?_⟩
    rw [groups]
    exact known begun
  fitting := by
    intro path key plain stands
    rw [slots] at stands
    rw [groups]
    exact orderly.fitting path key plain stands
  longer := by
    intro path brief plain begun stands
    rw [slots] at stands
    exact orderly.longer path brief plain begun stands
  single := by
    intro path plain
    rw [slots]
    exact orderly.single path plain

theorem Orderly.named_iff (orderly : plan.Orderly) {path : List String} {label : String}
    (plain : PlainPath (path ++ [label])) :
    (plan.group? (pathKey (path ++ [label]))).isSome = true ↔
      .group (pathKey (path ++ [label])) ∈ plan.slotsAt path := by
  constructor
  · intro named
    obtain ⟨brief, found⟩ := Option.isSome_iff_exists.mp named
    obtain ⟨path', plain', keyed, stands, -⟩ := orderly.placed _ brief found
    obtain ⟨rfl, -⟩ := pathKey_concat_injective plain plain' keyed
    exact stands
  · intro stands
    have plainPath := plain.front
    obtain ⟨-, -, -, named⟩ := orderly.fitting path _ plainPath stands
    exact named

theorem Orderly.hasBelow_iff (orderly : plan.Orderly) {path : List String} {label : String}
    (begun : path ≠ []) (plain : PlainPath (path ++ [label])) :
    plan.hasBelow (pathKey path) (pathKey (path ++ [label])) = true ↔
      .group (pathKey (path ++ [label])) ∈ plan.slotsAt path := by
  have plainPath := plain.front
  rw [hasBelow, List.any_eq_true, slotsAt_eq_below plan begun]
  constructor
  · intro given
    obtain ⟨slot, stands, same⟩ := given
    rw [beq_iff_eq] at same
    cases slot with
    | group key => exact same ▸ stands
    | entry brief =>
        rw [← slotsAt_eq_below plan begun] at stands
        obtain ⟨other, line, plainOther, keyed⟩ :=
          orderly.longer path brief plainPath begun stands
        have plainLabel : Plain label := plain label List.mem_concat_self
        exact absurd (keyed.symm.trans same)
          (leafKey_ne_pathKey begun plainPath plainOther plainLabel line)
  · intro stands
    exact ⟨_, stands, beq_self_eq_true _⟩

/-! ### Steps -/

theorem Orderly.putEntry (orderly : plan.Orderly) {path : List String} (plain : PlainPath path)
    {brief : Brief} (keyed : path ≠ [] →
      ∃ label line, Plain label ∧ brief.key = leafKey (pathKey path) label line) :
    (plan.putAt path (.entry brief)).Orderly where
  placed := by
    intro key named found
    rw [group?_putAt] at found
    obtain ⟨front, plainFront, same, stands, known⟩ := orderly.placed key named found
    refine ⟨front, plainFront, same, mem_slotsAt_putAt_of_mem plain plainFront.front stands _, ?_⟩
    rw [group?_putAt]
    exact known
  fitting := by
    intro other key plainOther member
    rw [group?_putAt]
    rcases mem_slotsAt_putAt plain plainOther member with old | new
    · exact orderly.fitting other key plainOther old
    · cases new.2
  longer := by
    intro other named plainOther begun member
    rcases mem_slotsAt_putAt plain plainOther member with old | new
    · exact orderly.longer other named plainOther begun old
    · obtain ⟨rfl, same⟩ := new
      rw [Slot.entry.inj same]
      exact keyed begun
  single := by
    intro other plainOther
    by_cases same : other = path
    · rw [same, slotsAt_putAt_self]
      refine List.pairwise_append.mpr ⟨orderly.single path plain, List.pairwise_singleton _ _, ?_⟩
      intro slot _ last inside key _
      rw [List.mem_singleton.mp inside]
      exact fun differs => nomatch differs
    · rw [slotsAt_putAt_other plan plain plainOther same]
      exact orderly.single other plainOther

/-- A group that is named for the first time stands nowhere yet, and is put at the end of its
path. -/
theorem Orderly.putGroup (orderly : plan.Orderly) {path : List String} {label : String}
    (plain : PlainPath (path ++ [label]))
    (above : path ≠ [] → (plan.group? (pathKey path)).isSome = true)
    (absent : plan.group? (pathKey (path ++ [label])) = none) (line : Int) :
    ((plan.name ⟨label, line, pathKey (path ++ [label])⟩).putAt path
      (.group (pathKey (path ++ [label])))).Orderly := by
  have plainPath := plain.front
  have plainLabel : Plain label := plain label List.mem_concat_self
  have groups : ∀ key, ((plan.name ⟨label, line, pathKey (path ++ [label])⟩).putAt path
      (.group (pathKey (path ++ [label])))).group? key =
        (plan.group? key).or (if pathKey (path ++ [label]) = key then
          some ⟨label, line, pathKey (path ++ [label])⟩ else none) := by
    intro key
    rw [group?_putAt, group?_name]
  have stays : ∀ key, (plan.group? key).isSome = true →
      (((plan.name ⟨label, line, pathKey (path ++ [label])⟩).putAt path
        (.group (pathKey (path ++ [label])))).group? key).isSome = true := by
    intro key known
    rw [groups, Option.isSome_or, known, Bool.true_or]
  constructor
  · intro key brief found
    rw [groups] at found
    cases known : plan.group? key with
    | some first =>
        rw [known, Option.some_or, Option.some.injEq] at found
        subst found
        obtain ⟨front, plainFront, same, stands, parent⟩ := orderly.placed key first known
        refine ⟨front, plainFront, same, ?_, fun begun => stays _ (parent begun)⟩
        apply mem_slotsAt_putAt_of_mem plainPath plainFront.front
        rw [slotsAt_name]
        exact stands
    | none =>
        rw [known, Option.none_or] at found
        split at found
        · rename_i same
          cases found
          refine ⟨path, plain, same.symm, ?_, fun begun => stays _ (above begun)⟩
          rw [slotsAt_putAt_self, same]
          exact List.mem_concat_self
        · cases found
  · intro other key plainOther member
    rcases mem_slotsAt_putAt plainPath plainOther member with old | new
    · rw [slotsAt_name] at old
      obtain ⟨last, plainLast, same, known⟩ := orderly.fitting other key plainOther old
      exact ⟨last, plainLast, same, stays key known⟩
    · obtain ⟨rfl, same⟩ := new
      cases same
      refine ⟨label, plainLabel, rfl, ?_⟩
      rw [groups, absent, Option.none_or, if_pos rfl]
      rfl
  · intro other brief plainOther begun member
    rcases mem_slotsAt_putAt plainPath plainOther member with old | new
    · rw [slotsAt_name] at old
      exact orderly.longer other brief plainOther begun old
    · cases new.2
  · intro other plainOther
    by_cases same : other = path
    · rw [same, slotsAt_putAt_self, slotsAt_name]
      refine List.pairwise_append.mpr
        ⟨orderly.single path plainPath, List.pairwise_singleton _ _, ?_⟩
      intro slot stands last inside key isGroup
      rw [List.mem_singleton.mp inside]
      intro sameKey
      -- this group would stand here already, so it would have been named
      rw [isGroup, ← Slot.group.inj sameKey, ← orderly.named_iff plain, absent] at stands
      cases stands
    · rw [slotsAt_putAt_other _ plainPath plainOther same, slotsAt_name]
      exact orderly.single other plainOther

theorem Orderly.flat (orderly : plan.Orderly) (label : String) (line : Int) :
    (plan.perform (.flat label line)).Orderly :=
  orderly.putEntry plainPath_nil fun begun => absurd rfl begun

theorem Orderly.top (orderly : plan.Orderly) {label : String} (plain : Plain label) (line : Int) :
    (plan.perform (.top label line)).Orderly := by
  rw [perform]
  split
  · exact orderly
  · rename_i unnamed
    have absent : plan.group? (pathKey ([] ++ [label])) = none :=
      Option.not_isSome_iff_eq_none.mp unnamed
    have plainTop : PlainPath ([] ++ [label]) := plain.path
    exact orderly.putGroup plainTop (fun begun => absurd rfl begun) absent line

theorem Orderly.below (orderly : plan.Orderly) {path : List String} {label : String}
    (begun : path ≠ []) (plain : PlainPath (path ++ [label]))
    (above : (plan.group? (pathKey path)).isSome = true) (line : Int) :
    (plan.perform (.below (pathKey path) label line)).Orderly := by
  have nameOnly : (plan.name ⟨label, line, pathKey (path ++ [label])⟩).hasBelow (pathKey path)
      (pathKey (path ++ [label])) = plan.hasBelow (pathKey path) (pathKey (path ++ [label])) := rfl
  rw [perform, ← pathKey_concat path label begun, offer, nameOnly]
  split
  · rename_i stands
    rw [orderly.hasBelow_iff begun plain, ← orderly.named_iff plain] at stands
    exact orderly.of_same (group?_name_of_known plan ⟨label, line, pathKey (path ++ [label])⟩ stands)
      (slotsAt_name plan _)
  · rename_i missing
    rw [orderly.hasBelow_iff begun plain, ← orderly.named_iff plain,
      Option.not_isSome_iff_eq_none] at missing
    rw [← putAt_eq_put _ begun]
    exact orderly.putGroup plain (fun _ => above) missing line

theorem Orderly.entry (orderly : plan.Orderly) {path : List String} {label : String}
    (begun : path ≠ []) (plain : PlainPath (path ++ [label])) (line : Int) :
    (plan.perform (.entry (pathKey path) label line)).Orderly := by
  rw [perform, ← putAt_eq_put _ begun]
  apply orderly.putEntry plain.front
  exact fun _ => ⟨label, line, plain label List.mem_concat_self, rfl⟩

/-! ### Annotations -/

theorem Orderly.stepsBelow (orderly : plan.Orderly) (line : Int) (done rest : List String)
    (begun : done ≠ []) (plain : PlainPath (done ++ rest))
    (above : (plan.group? (pathKey done)).isSome = true) :
    (plan.run (stepsBelow line (pathKey done) rest)).Orderly := by
  induction rest generalizing plan done with
  | nil => exact orderly
  | cons label rest ih =>
      have plainLonger : PlainPath (done ++ [label]) := by
        intro one member
        apply plain one
        rw [List.append_cons]
        exact List.mem_append_left _ member
      cases rest with
      | nil => exact orderly.entry begun plainLonger line
      | cons next rest =>
          rw [stepsBelow_cons_cons line done label next rest begun]
          have named : ((plan.perform (.below (pathKey done) label line)).group?
              (pathKey (done ++ [label]))).isSome = true := by
            rw [group?_perform, Step.names?, ← pathKey_concat done label begun, Option.filter_some,
              beq_self_eq_true, if_pos rfl, Option.isSome_or, Option.isSome_some, Bool.or_true]
          rw [List.append_cons] at plain
          exact ih (orderly.below begun plainLonger above line) (done ++ [label]) (by simp) plain
            named

theorem Orderly.pathSteps (orderly : plan.Orderly) (line : Int) {labels : List String}
    (plain : PlainPath labels) : (plan.run (pathSteps line labels)).Orderly := by
  cases labels with
  | nil => exact orderly
  | cons top rest =>
      have named : ((plan.perform (.top top line)).group? (pathKey [top])).isSome = true := by
        rw [pathKey_singleton, group?_perform, Step.names?, Option.filter_some, beq_self_eq_true,
          if_pos rfl, Option.isSome_or, Option.isSome_some, Bool.or_true]
      exact (orderly.top (plain top List.mem_cons_self) line).stepsBelow line [top] rest (by simp)
        plain named

theorem Orderly.stepsOf (orderly : plan.Orderly) (pair : String × Int) :
    (plan.run (stepsOf "::" pair)).Orderly := by
  rw [Outline.stepsOf]
  split
  · exact orderly.pathSteps pair.2 (segments_plain pair.1)
  · exact orderly.flat pair.1 pair.2

end Plan

end CommentOutline.Outline
