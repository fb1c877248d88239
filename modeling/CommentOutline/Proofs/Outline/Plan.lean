import Mathlib.Data.List.Forall2
import CommentOutline.Proofs.Outline.Path
import CommentOutline.Proofs.Outline.Store

set_option autoImplicit false

/-! An outline by keys. A plan says which groups were named, what stands at the top and what stands
below each group, with every group called by its key; there are no cells in it, and every
annotation is a few steps. The builder realizes the plan of the annotations that it was given. -/

namespace CommentOutline.Outline

open List (Forall₂)

/-- What has a place in an outline: an entry, or the group with a key. -/
inductive Slot where
  | entry (brief : Brief)
  | group (key : String)
deriving DecidableEq

def Slot.key : Slot → String
  | .entry brief => brief.key
  | .group key => key

/-- What an annotation does to an outline, one label at a time. -/
inductive Step where
  | flat (label : String) (line : Int)
  | top (label : String) (line : Int)
  | below (parent label : String) (line : Int)
  | entry (parent label : String) (line : Int)
deriving DecidableEq

def Step.names? : Step → Option Brief
  | .top label line => some ⟨label, line, label⟩
  | .below parent label line => some ⟨label, line, containerKey parent label⟩
  | .flat .. | .entry .. => none

/-- The steps along a path below the group with the given key. -/
def stepsBelow (line : Int) : (parent : String) → List String → List Step
  | _, [] => []
  | parent, [label] => [.entry parent label line]
  | parent, label :: next :: rest =>
      .below parent label line :: stepsBelow line (containerKey parent label) (next :: rest)

def pathSteps (line : Int) : List String → List Step
  | [] => []
  | top :: rest => .top top line :: stepsBelow line top rest

def stepsOf (separator : String) (pair : String × Int) : List Step :=
  if Text.contains pair.1 separator then pathSteps pair.2 (Builder.segments separator pair.1)
  else [.flat pair.1 pair.2]

theorem stepsBelow_cons_cons (line : Int) (done : List String) (label next : String)
    (rest : List String) (begun : done ≠ []) :
    stepsBelow line (pathKey done) (label :: next :: rest) =
      .below (pathKey done) label line ::
        stepsBelow line (pathKey (done ++ [label])) (next :: rest) := by
  rw [pathKey_concat done label begun]
  rfl

structure Plan where
  /-- The groups as they were named. The first naming of a key counts. -/
  named : List Brief
  roots : List Slot
  below : String → List Slot

namespace Plan

def empty : Plan := ⟨[], [], fun _ => []⟩

def group? (plan : Plan) (key : String) : Option Brief :=
  plan.named.find? fun brief => brief.key == key

def name (plan : Plan) (brief : Brief) : Plan := { plan with named := plan.named ++ [brief] }

def putRoot (plan : Plan) (slot : Slot) : Plan := { plan with roots := plan.roots ++ [slot] }

def put (plan : Plan) (parent : String) (slot : Slot) : Plan :=
  { plan with
    below := fun key => if key = parent then plan.below key ++ [slot] else plan.below key }

def hasBelow (plan : Plan) (parent key : String) : Bool :=
  (plan.below parent).any fun slot => slot.key == key

/-- Puts a group below another one unless something with its key is there. -/
def offer (plan : Plan) (parent key : String) : Plan :=
  if plan.hasBelow parent key then plan else plan.put parent (.group key)

def perform (plan : Plan) : Step → Plan
  | .flat label line => plan.putRoot (.entry ⟨label, line, label⟩)
  | .top label line =>
      if (plan.group? label).isSome then plan
      else (plan.name ⟨label, line, label⟩).putRoot (.group label)
  | .below parent label line =>
      (plan.name ⟨label, line, containerKey parent label⟩).offer parent (containerKey parent label)
  | .entry parent label line => plan.put parent (.entry ⟨label, line, leafKey parent label line⟩)

def run (plan : Plan) (steps : List Step) : Plan := steps.foldl perform plan

def ofPairs (separator : String) (pairs : List (String × Int)) : Plan :=
  empty.run (pairs.flatMap (stepsOf separator))

theorem group?_name (plan : Plan) (brief : Brief) (key : String) :
    (plan.name brief).group? key =
      (plan.group? key).or (if brief.key = key then some brief else none) := by
  simp only [group?, name, List.find?_append, List.find?_singleton, beq_iff_eq]

theorem group?_name_of_known (plan : Plan) (brief : Brief)
    (known : (plan.group? brief.key).isSome = true) (key : String) :
    (plan.name brief).group? key = plan.group? key := by
  rw [group?_name]
  by_cases same : brief.key = key
  · obtain ⟨first, found⟩ := Option.isSome_iff_exists.mp known
    rw [← same, found, Option.some_or]
  · rw [if_neg same, Option.or_none]

theorem below_put_self (plan : Plan) (parent : String) (slot : Slot) :
    (plan.put parent slot).below parent = plan.below parent ++ [slot] :=
  if_pos rfl

theorem below_put_other (plan : Plan) {parent key : String} (slot : Slot)
    (other : key ≠ parent) : (plan.put parent slot).below key = plan.below key :=
  if_neg other

theorem below_offer_self (plan : Plan) (parent key : String) :
    (plan.offer parent key).below parent =
      plan.below parent ++ if plan.hasBelow parent key then [] else [.group key] := by
  rw [offer]
  split
  · exact (List.append_nil _).symm
  · exact below_put_self plan parent _

theorem below_offer_other (plan : Plan) {parent other : String} (key : String)
    (differs : other ≠ parent) : (plan.offer parent key).below other = plan.below other := by
  rw [offer]
  split
  · rfl
  · exact below_put_other plan _ differs

theorem below_top (plan : Plan) (label : String) (line : Int) :
    (plan.perform (.top label line)).below = plan.below := by
  rw [perform]
  split <;> rfl

theorem group?_offer (plan : Plan) (parent key name : String) :
    (plan.offer parent key).group? name = plan.group? name := by
  rw [offer]
  split <;> rfl

theorem group?_perform (plan : Plan) (step : Step) (key : String) :
    (plan.perform step).group? key =
      (plan.group? key).or (step.names?.filter fun brief => brief.key == key) := by
  cases step with
  | flat label line => exact (Option.or_none).symm
  | entry parent label line => exact (Option.or_none).symm
  | top label line =>
      have named : (plan.perform (.top label line)).group? key =
          (plan.name ⟨label, line, label⟩).group? key := by
        rw [perform]
        split
        · rename_i known
          exact (group?_name_of_known plan ⟨label, line, label⟩ known key).symm
        · rfl
      rw [named, group?_name, Step.names?, Option.filter_some]
      simp only [beq_iff_eq]
  | below parent label line =>
      rw [perform, group?_offer, group?_name, Step.names?, Option.filter_some]
      simp only [beq_iff_eq]

theorem group?_run (plan : Plan) (steps : List Step) (key : String) :
    (plan.run steps).group? key =
      (plan.group? key).or
        ((steps.filterMap Step.names?).find? fun brief => brief.key == key) := by
  induction steps generalizing plan with
  | nil => exact (Option.or_none).symm
  | cons step steps ih =>
      have first : (plan.run (step :: steps)) = (plan.perform step).run steps := rfl
      rw [first, ih, group?_perform, Option.or_assoc, List.filterMap_cons]
      cases step.names? with
      | none => rfl
      | some brief =>
          rw [List.find?_cons, Option.filter_some]
          cases brief.key == key <;> rfl

theorem run_append (plan : Plan) (first second : List Step) :
    plan.run (first ++ second) = (plan.run first).run second :=
  List.foldl_append

end Plan

/-! ### A builder and its plan -/

def Cell.brief (cell : Cell) : Brief := ⟨cell.label, cell.line, cell.key⟩

namespace Builder

/-- A cell takes a place: the cell registered for a group, or a cell of its own for an entry. -/
def Holds (builder : Builder) (id : Nat) : Slot → Prop
  | .entry brief =>
      builder.cells[id]? = some ⟨brief.label, brief.line, brief.key, []⟩ ∧
        ∀ key, builder.containers.lookup key ≠ some id
  | .group key => builder.containers.lookup key = some id

structure Carries (builder : Builder) (plan : Plan) (key : String) (cell : Cell) : Prop where
  key_eq : cell.key = key
  named : plan.group? key = some cell.brief
  children : Forall₂ builder.Holds cell.children (plan.below key)

structure Realizes (builder : Builder) (plan : Plan) : Prop where
  grows : Grows builder.cells
  group : ∀ key id, builder.containers.lookup key = some id →
    ∃ cell, builder.cells[id]? = some cell ∧ builder.Carries plan key cell
  missing : ∀ key, builder.containers.lookup key = none →
    plan.group? key = none ∧ plan.below key = []
  roots : Forall₂ builder.Holds builder.roots plan.roots

/-- What stays: a registered cell under its key, and a cell that no key names as it is. -/
structure Extends (old new : Builder) : Prop where
  index : ∀ key id, old.containers.lookup key = some id → new.containers.lookup key = some id
  loose : ∀ id cell, old.cells[id]? = some cell → (∀ key, old.containers.lookup key ≠ some id) →
    new.cells[id]? = some cell ∧ ∀ key, new.containers.lookup key ≠ some id

theorem Holds.extend {old new : Builder} (extends_ : Extends old new) {id : Nat} {slot : Slot}
    (holds : old.Holds id slot) : new.Holds id slot := by
  cases slot with
  | group key => exact extends_.index key id holds
  | entry brief => exact extends_.loose id _ holds.1 holds.2

theorem Holds.extendAll {old new : Builder} (extends_ : Extends old new) {ids : List Nat}
    {slots : List Slot} (holds : Forall₂ old.Holds ids slots) : Forall₂ new.Holds ids slots :=
  holds.imp fun _ _ => Holds.extend extends_

theorem Holds.concat {builder : Builder} {ids : List Nat} {slots : List Slot} {id : Nat}
    {slot : Slot} (holds : Forall₂ builder.Holds ids slots) (last : builder.Holds id slot) :
    Forall₂ builder.Holds (ids ++ [id]) (slots ++ [slot]) :=
  List.rel_append holds (.cons last .nil)

theorem Realizes.isSome_group? {builder : Builder} {plan : Plan} (real : builder.Realizes plan)
    (key : String) :
    (plan.group? key).isSome = (builder.containers.lookup key).isSome := by
  cases found : builder.containers.lookup key with
  | none => rw [(real.missing key found).1]; rfl
  | some id =>
      obtain ⟨cell, _, carries⟩ := real.group key id found
      rw [carries.named]
      rfl

end Builder

end CommentOutline.Outline
