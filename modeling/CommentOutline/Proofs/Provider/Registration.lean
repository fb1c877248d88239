import Mathlib.Data.List.Induction
import Mathlib.Data.List.Infix
import Mathlib.Data.List.Nodup
import CommentOutline.Provider.Emitter

set_option autoImplicit false

/-! Subscriptions and their ends. Every subscription comes with a function of its own that ends it,
but an emitter knows its subscriptions by their listeners alone. As long as every call of such a
function hits its own subscription, the emitter has exactly those that were not ended; a call that
hits another one, of an equal listener, shows in what is called and in which order. -/

namespace CommentOutline.Provider.Emitter

variable {Listener : Type}

/-- A call at an emitter. Subscriptions are numbered in their order, and the function that ends one
is named by its number. -/
inductive Call (Listener : Type) where
  | subscribe (listener : Listener)
  | unsubscribe (number : Nat)
deriving Repr, DecidableEq

/-- An emitter and the subscriptions that it has given out, in their order. -/
structure Desk (Listener : Type) where
  emitter : Emitter Listener
  given : List (Subscription Listener)
deriving Repr, DecidableEq

/-- The listeners that were subscribed. The place of each is the number of its subscription. -/
def subscribed (calls : List (Call Listener)) : List Listener :=
  calls.filterMap fun call =>
    match call with
    | .subscribe listener => some listener
    | .unsubscribe _ => none

/-- Calls that can be made: the function that ends a subscription is there once this was made. -/
inductive Possible : List (Call Listener) → Prop
  | nil : Possible []
  | subscribe {calls : List (Call Listener)} (listener : Listener) :
      Possible calls → Possible (calls ++ [.subscribe listener])
  | unsubscribe {calls : List (Call Listener)} {number : Nat} :
      Possible calls → number < (subscribed calls).length →
      Possible (calls ++ [.unsubscribe number])

variable {calls : List (Call Listener)} {number : Nat} {listener : Listener}

theorem subscribed_append (first second : List (Call Listener)) :
    subscribed (first ++ second) = subscribed first ++ subscribed second :=
  List.filterMap_append

theorem subscribed_subscribe (calls : List (Call Listener)) (listener : Listener) :
    subscribed (calls ++ [.subscribe listener]) = subscribed calls ++ [listener] :=
  subscribed_append calls _

theorem subscribed_unsubscribe (calls : List (Call Listener)) (number : Nat) :
    subscribed (calls ++ [.unsubscribe number]) = subscribed calls :=
  (subscribed_append calls _).trans (List.append_nil _)

theorem Possible.lt_length (possible : Possible calls) (called : .unsubscribe number ∈ calls) :
    number < (subscribed calls).length := by
  induction possible with
  | nil => cases called
  | subscribe listener _ ih =>
      rcases List.mem_append.mp called with before | last
      · rw [subscribed_subscribe, List.length_append]
        exact Nat.lt_add_right 1 (ih before)
      · cases List.mem_singleton.mp last
  | unsubscribe _ made ih =>
      rw [subscribed_unsubscribe]
      rcases List.mem_append.mp called with before | last
      · exact ih before
      · cases List.mem_singleton.mp last
        exact made

/-- Calls can be made behind so many subscriptions. -/
def canFollow : Nat → List (Call Listener) → Bool
  | _, [] => true
  | made, .subscribe _ :: calls => canFollow (made + 1) calls
  | made, .unsubscribe number :: calls => decide (number < made) && canFollow made calls

theorem canFollow_append (made : Nat) (first second : List (Call Listener)) :
    canFollow made (first ++ second) =
      (canFollow made first && canFollow (made + (subscribed first).length) second) := by
  induction first generalizing made with
  | nil => rfl
  | cons call first ih =>
      cases call with
      | subscribe listener =>
          have more : (subscribed (.subscribe listener :: first)).length =
              (subscribed first).length + 1 := rfl
          rw [List.cons_append, canFollow, canFollow, ih, more, Nat.add_right_comm, Nat.add_assoc]
      | unsubscribe number =>
          have same : subscribed (.unsubscribe number :: first) = subscribed first := rfl
          rw [List.cons_append, canFollow, canFollow, ih, same, Bool.and_assoc]

theorem possible_iff (calls : List (Call Listener)) : Possible calls ↔ canFollow 0 calls = true := by
  constructor
  · intro possible
    induction possible with
    | nil => rfl
    | subscribe listener _ ih =>
        rw [canFollow_append, ih]
        rfl
    | unsubscribe _ made ih =>
        rw [canFollow_append, ih, Nat.zero_add, canFollow, decide_eq_true made]
        rfl
  · intro follows
    induction calls using List.reverseRecOn with
    | nil => exact .nil
    | append_singleton calls call ih =>
        rw [canFollow_append, Nat.zero_add, Bool.and_eq_true] at follows
        cases call with
        | subscribe listener => exact .subscribe listener (ih follows.1)
        | unsubscribe number =>
            rw [canFollow, Bool.and_eq_true, decide_eq_true_iff] at follows
            exact .unsubscribe (ih follows.1) follows.2.1

instance (calls : List (Call Listener)) : Decidable (Possible calls) :=
  decidable_of_iff _ (possible_iff calls).symm

theorem Possible.of_front {before : List (Call Listener)} (possible : Possible calls)
    (front : before <+: calls) : Possible before := by
  obtain ⟨more, rfl⟩ := front
  rw [possible_iff, canFollow_append, Bool.and_eq_true] at possible
  exact (possible_iff before).mpr possible.1

/-! ### Lists with one listener several times -/

theorem forall_eq_of_concat_eq_cons {listeners : List Listener}
    (same : listeners ++ [listener] = listener :: listeners) :
    ∀ other ∈ listeners, other = listener := by
  induction listeners with
  | nil => exact List.forall_mem_nil _
  | cons first rest ih =>
      rw [List.cons_append, List.cons.injEq] at same
      obtain ⟨rfl, same⟩ := same
      exact List.forall_mem_cons.mpr ⟨rfl, ih same⟩

theorem exists_up_to_first (entries : List (Listener × Nat)) (listener : Listener) :
    ∃ front rest, entries = front ++ rest ∧ (∀ entry ∈ front, entry.1 ≠ listener) ∧
      (rest = [] ∨ ∃ number more, rest = (listener, number) :: more) := by
  induction entries with
  | nil => exact ⟨[], [], rfl, List.forall_mem_nil _, Or.inl rfl⟩
  | cons entry entries ih =>
      by_cases same : entry.1 = listener
      · exact ⟨[], entry :: entries, rfl, List.forall_mem_nil _,
          Or.inr ⟨entry.2, entries, by rw [← same]⟩⟩
      · obtain ⟨front, rest, rfl, others, begins⟩ := ih
        exact ⟨entry :: front, rest, rfl, List.forall_mem_cons.mpr ⟨same, others⟩, begins⟩

variable [DecidableEq Listener]

/-- Behind a run of one listener it does not matter which of them is taken away. -/
theorem erase_run {run : List Listener} (equal : ∀ other ∈ run, other = listener)
    (rest : List Listener) : (run ++ listener :: rest).erase listener = run ++ rest := by
  have replicated : run = List.replicate run.length listener := List.eq_replicate_of_mem equal
  rw [replicated, List.append_cons, ← List.replicate_succ', List.replicate_succ, List.cons_append,
    List.erase_cons_head]

/-! ### The emitter and the subscriptions that stand -/

def Desk.perform (desk : Desk Listener) : Call Listener → Desk Listener
  | .subscribe listener =>
      let added := desk.emitter.subscribe listener
      ⟨added.1, desk.given ++ [added.2]⟩
  | .unsubscribe number =>
      match desk.given[number]? with
      | some subscription => { desk with emitter := desk.emitter.unsubscribe subscription }
      | none => desk

def Desk.after (calls : List (Call Listener)) : Desk Listener :=
  calls.foldl perform ⟨.silent, []⟩

/-- The subscriptions whose own function was not called, with their numbers. -/
def standing (calls : List (Call Listener)) : List (Listener × Nat) :=
  (subscribed calls).zipIdx.filter fun entry => .unsubscribe entry.2 ∉ calls

/-- The emitter calls one listener for each standing subscription, in the order of these, and counts
as many. -/
def EndsOwn (calls : List (Call Listener)) : Prop :=
  (Desk.after calls).emitter.fire = (standing calls).map Prod.fst ∧
    (Desk.after calls).emitter.listenerCount = (standing calls).length

instance (calls : List (Call Listener)) : Decidable (EndsOwn calls) :=
  inferInstanceAs (Decidable (_ ∧ _))

/-- The function of a subscription hits this one or, if it was called before, nothing. While the
subscription stands, those of its listener that stand before it stand directly before it; once it
was ended, none of its listener stands. -/
structure Hits (calls : List (Call Listener)) (number : Nat) (listener : Listener) : Prop where
  stands : .unsubscribe number ∉ calls → ∃ front run back,
    standing calls = front ++ (run ++ (listener, number) :: back) ∧
      (∀ entry ∈ front, entry.1 ≠ listener) ∧ ∀ entry ∈ run, entry.1 = listener
  ended : .unsubscribe number ∈ calls → ∀ entry ∈ standing calls, entry.1 ≠ listener

theorem Desk.after_concat (calls : List (Call Listener)) (call : Call Listener) :
    Desk.after (calls ++ [call]) = (Desk.after calls).perform call := by
  rw [after, List.foldl_append]
  rfl

theorem Desk.given_after (calls : List (Call Listener)) :
    (Desk.after calls).given = (subscribed calls).map Subscription.mk := by
  induction calls using List.reverseRecOn with
  | nil => rfl
  | append_singleton calls call ih =>
      rw [after_concat]
      cases call with
      | subscribe listener =>
          rw [subscribed_subscribe, List.map_append, ← ih]
          rfl
      | unsubscribe number =>
          rw [subscribed_unsubscribe, ← ih, perform]
          split <;> rfl

theorem Desk.listeners_subscribe (calls : List (Call Listener)) (listener : Listener) :
    (Desk.after (calls ++ [.subscribe listener])).emitter.listeners =
      (Desk.after calls).emitter.listeners ++ [listener] := by
  rw [after_concat]
  rfl

theorem Desk.listeners_unsubscribe (made : (subscribed calls)[number]? = some listener) :
    (Desk.after (calls ++ [.unsubscribe number])).emitter.listeners =
      (Desk.after calls).emitter.listeners.erase listener := by
  have found : (Desk.after calls).given[number]? = some ⟨listener⟩ := by
    rw [given_after, List.getElem?_map, made, Option.map_some]
  rw [after_concat, perform, found]
  rfl

theorem standing_subscribe (possible : Possible calls) (listener : Listener) :
    standing (calls ++ [.subscribe listener]) =
      standing calls ++ [(listener, (subscribed calls).length)] := by
  have fresh : .unsubscribe (subscribed calls).length ∉ calls := fun called =>
    Nat.lt_irrefl _ (possible.lt_length called)
  simp [standing, subscribed_subscribe, List.zipIdx_append, List.filter_append, fresh]

theorem standing_unsubscribe (calls : List (Call Listener)) (number : Nat) :
    standing (calls ++ [.unsubscribe number]) =
      (standing calls).filter fun entry => entry.2 ≠ number := by
  rw [standing, standing, subscribed_unsubscribe, List.filter_filter]
  congr 1
  funext entry
  simp [and_comm]

theorem mem_standing_iff (calls : List (Call Listener)) (listener : Listener) (number : Nat) :
    (listener, number) ∈ standing calls ↔
      (subscribed calls)[number]? = some listener ∧ .unsubscribe number ∉ calls := by
  rw [standing, List.mem_filter, List.mem_zipIdx_iff_getElem?, decide_eq_true_iff]

theorem number_ne_of_split {front back : List (Listener × Nat)}
    (split : standing calls = front ++ (listener, number) :: back) :
    ∀ entry ∈ front ++ back, entry.2 ≠ number := by
  have numbers : ((subscribed calls).zipIdx.map Prod.snd).Nodup := by
    rw [List.zipIdx_map_snd]
    exact List.nodup_range'
  have kept : ((standing calls).map Prod.snd).Nodup :=
    numbers.sublist (List.filter_sublist.map Prod.snd)
  rw [split, List.map_append, List.map_cons, List.nodup_middle, List.nodup_cons,
    ← List.map_append] at kept
  rintro entry inside rfl
  exact kept.1 (List.mem_map.mpr ⟨entry, inside, rfl⟩)

theorem filter_standing {front back : List (Listener × Nat)}
    (split : standing calls = front ++ (listener, number) :: back) :
    (standing calls).filter (fun entry => entry.2 ≠ number) = front ++ back := by
  rw [split, List.filter_append, List.filter_cons_of_neg (by simp), ← List.filter_append,
    List.filter_eq_self]
  exact fun entry inside => decide_eq_true (number_ne_of_split split entry inside)

/-! ### One call -/

/-- The first registration of a listener can be taken away for another one exactly if only
registrations of this listener stand between the two. -/
theorem erase_eq_iff (stands : (listener, number) ∈ standing calls) :
    ((standing calls).map Prod.fst).erase listener =
        ((standing calls).filter fun entry => entry.2 ≠ number).map Prod.fst ↔
      ∃ front run back, standing calls = front ++ (run ++ (listener, number) :: back) ∧
        (∀ entry ∈ front, entry.1 ≠ listener) ∧ ∀ entry ∈ run, entry.1 = listener := by
  have absent : ∀ {front : List (Listener × Nat)}, (∀ entry ∈ front, entry.1 ≠ listener) →
      listener ∉ front.map Prod.fst := by
    intro front others member
    obtain ⟨entry, inside, same⟩ := List.mem_map.mp member
    exact others entry inside same
  constructor
  · intro same
    obtain ⟨before, back, split⟩ := List.append_of_mem stands
    obtain ⟨front, rest, rfl, others, rfl | ⟨other, run, rfl⟩⟩ := exists_up_to_first before listener
    · rw [List.append_nil] at split
      exact ⟨front, [], back, split, others, List.forall_mem_nil _⟩
    · refine ⟨front, (listener, other) :: run, back, by rw [split, List.append_assoc], others, ?_⟩
      rw [filter_standing split, split] at same
      simp only [List.append_assoc, List.cons_append, List.map_append, List.map_cons] at same
      rw [List.erase_append_right _ (absent others), List.erase_cons_head, List.append_right_inj,
        List.append_cons, ← List.cons_append, List.append_left_inj] at same
      refine List.forall_mem_cons.mpr ⟨rfl, fun entry inside => ?_⟩
      exact forall_eq_of_concat_eq_cons same entry.1 (List.mem_map_of_mem inside)
  · intro given
    obtain ⟨front, run, back, split, others, equal⟩ := given
    have whole : standing calls = front ++ run ++ (listener, number) :: back := by
      rw [split, List.append_assoc]
    have equalRun : ∀ other ∈ run.map Prod.fst, other = listener := by
      intro other member
      obtain ⟨entry, inside, rfl⟩ := List.mem_map.mp member
      exact equal entry inside
    rw [filter_standing whole, split]
    simp only [List.map_append, List.map_cons, List.append_assoc]
    rw [List.erase_append_right _ (absent others), erase_run equalRun]

theorem endsOwn_iff (calls : List (Call Listener)) :
    EndsOwn calls ↔ (Desk.after calls).emitter.listeners = (standing calls).map Prod.fst := by
  refine ⟨And.left, fun same => ⟨same, ?_⟩⟩
  rw [listenerCount, same, List.length_map]

theorem EndsOwn.subscribe (own : EndsOwn calls) (possible : Possible calls)
    (listener : Listener) : EndsOwn (calls ++ [.subscribe listener]) := by
  rw [endsOwn_iff] at own ⊢
  rw [Desk.listeners_subscribe, own, standing_subscribe possible, List.map_append]
  rfl

theorem EndsOwn.unsubscribe_iff (own : EndsOwn calls)
    (made : (subscribed calls)[number]? = some listener) :
    EndsOwn (calls ++ [.unsubscribe number]) ↔ Hits calls number listener := by
  rw [endsOwn_iff] at own ⊢
  rw [Desk.listeners_unsubscribe made, own, standing_unsubscribe]
  by_cases called : .unsubscribe number ∈ calls
  · have gone : ∀ entry ∈ standing calls, entry.2 ≠ number := by
      rintro ⟨other, _⟩ inside rfl
      exact ((mem_standing_iff calls other _).mp inside).2 called
    have kept : (standing calls).filter (fun entry => entry.2 ≠ number) = standing calls :=
      List.filter_eq_self.mpr fun entry inside => decide_eq_true (gone entry inside)
    rw [kept, List.erase_eq_self_iff, List.mem_map]
    constructor
    · intro absent
      exact ⟨fun free => absurd called free, fun _ entry inside same => absent ⟨entry, inside, same⟩⟩
    · intro hits given
      obtain ⟨entry, inside, same⟩ := given
      exact hits.ended called entry inside same
  · rw [erase_eq_iff ((mem_standing_iff calls listener number).mpr ⟨made, called⟩)]
    exact ⟨fun run => ⟨fun _ => run, fun again => absurd again called⟩, fun hits => hits.stands called⟩

/-! ### Sequences of calls -/

/-- In a sequence of calls, every function of a subscription hits when it is called. -/
def AllHit (calls : List (Call Listener)) : Prop :=
  ∀ before number listener, before ++ [.unsubscribe number] <+: calls →
    (subscribed before)[number]? = some listener → Hits before number listener

theorem AllHit.of_front {before : List (Call Listener)} (all : AllHit calls)
    (front : before <+: calls) : AllHit before :=
  fun earlier number listener inside made =>
    all earlier number listener (inside.trans front) made

theorem Possible.endsOwn (possible : Possible calls) (all : AllHit calls) : EndsOwn calls := by
  induction possible with
  | nil => exact ⟨rfl, rfl⟩
  | subscribe listener possible ih =>
      exact (ih (all.of_front (List.prefix_append _ _))).subscribe possible listener
  | unsubscribe possible made ih =>
      have found := List.getElem?_eq_getElem made
      have own := ih (all.of_front (List.prefix_append _ _))
      exact (own.unsubscribe_iff found).mpr (all _ _ _ List.prefix_rfl found)

/-- If no listener is subscribed twice, every function hits, however often it is called. -/
theorem allHit_of_nodup (once : (subscribed calls).Nodup) : AllHit calls := by
  intro before number listener inside made
  have earlier : (subscribed before).Nodup := by
    obtain ⟨more, rfl⟩ := (List.prefix_append before _).trans inside
    rw [subscribed_append] at once
    exact once.of_append_left
  have only : ∀ entry ∈ standing before, entry.1 = listener → entry.2 = number := by
    rintro ⟨_, other⟩ member rfl
    have there := ((mem_standing_iff before _ other).mp member).1
    have bound := (List.getElem?_eq_some_iff.mp there).1
    exact (List.getElem?_inj bound earlier).mp (there.trans made.symm)
  constructor
  · intro free
    obtain ⟨front, back, split⟩ :=
      List.append_of_mem ((mem_standing_iff before listener number).mpr ⟨made, free⟩)
    refine ⟨front, [], back, split, fun entry member same => ?_, List.forall_mem_nil _⟩
    have stands : entry ∈ standing before := by
      rw [split]
      exact List.mem_append_left _ member
    exact number_ne_of_split split entry (List.mem_append_left _ member) (only entry stands same)
  · intro called entry member same
    have free := ((mem_standing_iff before entry.1 entry.2).mp member).2
    rw [only entry member same] at free
    exact free called

theorem Possible.endsOwn_of_nodup (possible : Possible calls) (once : (subscribed calls).Nodup) :
    ∀ before, before <+: calls → EndsOwn before :=
  fun _ front => (possible.of_front front).endsOwn ((allHit_of_nodup once).of_front front)

/-- The emitter has exactly the subscriptions that were not ended, after each of the calls, if and
only if every function of a subscription hits when it is called. -/
theorem endsOwn_iff_allHit (calls : List (Call Listener)) (possible : Possible calls) :
    (∀ before, before <+: calls → EndsOwn before) ↔ AllHit calls := by
  constructor
  · intro own before number listener inside made
    have earlier := own before ((List.prefix_append _ _).trans inside)
    exact (earlier.unsubscribe_iff made).mp (own _ inside)
  · intro all before front
    exact (possible.of_front front).endsOwn (all.of_front front)

/-- A function that is called twice, and only then its listener again. -/
theorem endsOwn_iff_allHit_again :
    Possible [.subscribe "A", .subscribe "B", .unsubscribe 0, .unsubscribe 0, .subscribe "A"] ∧
    (∀ before, before <+: [.subscribe "A", .subscribe "B", .unsubscribe 0, .unsubscribe 0,
      .subscribe "A"] → EndsOwn before) ∧
    AllHit [.subscribe "A", .subscribe "B", .unsubscribe 0, .unsubscribe 0, .subscribe "A"] := by
  have possible : Possible [.subscribe "A", .subscribe "B", .unsubscribe 0, .unsubscribe 0,
      .subscribe "A"] := by decide
  have own : ∀ before ∈ [Call.subscribe "A", .subscribe "B", .unsubscribe 0, .unsubscribe 0,
      .subscribe "A"].inits, EndsOwn before := by decide +kernel
  have fronts : ∀ before, before <+: [Call.subscribe "A", .subscribe "B", .unsubscribe 0,
      .unsubscribe 0, .subscribe "A"] → EndsOwn before :=
    fun before front => own before ((List.mem_inits before _).mpr front)
  exact ⟨possible, fronts, (endsOwn_iff_allHit _ possible).mp fronts⟩

/-- The function of one subscription, called twice, ends another one of its listener too; and the
function of a later subscription ends an earlier one in its place. -/
theorem not_endsOwn_of_same_listener :
    (Possible [.subscribe "A", .subscribe "A", .unsubscribe 0, .unsubscribe 0] ∧
      ¬ EndsOwn [.subscribe "A", .subscribe "A", .unsubscribe 0, .unsubscribe 0]) ∧
    Possible [.subscribe "A", .subscribe "B", .subscribe "A", .unsubscribe 2] ∧
      ¬ EndsOwn [.subscribe "A", .subscribe "B", .subscribe "A", .unsubscribe 2] := by
  decide +kernel

end CommentOutline.Provider.Emitter
