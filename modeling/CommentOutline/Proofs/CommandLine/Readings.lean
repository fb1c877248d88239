import CommentOutline.CommandLine.Arguments

set_option autoImplicit false

/-! How a scope reads its arguments: what an argument can be, what the switches written in it do to a
reading, and one rule for each way in which a reading goes on. What stands in front of a command is
read the same whatever the command's own arguments are. -/

namespace CommentOutline.CommandLine

variable {scope : Scope} {switch : Switch} {written : Written} {cluster : Cluster} {token : Token}
variable {text : String} {arguments rest : List String} {words : List Token}
variable {reading next final : Reading} {behindPath : Bool}

/-! ### Tokens -/

theorem switch_mem_of_spelling {spelling : String}
    (listed : (spelling, switch) ∈ scope.spellings) : switch ∈ scope.switches := by
  obtain ⟨found, member, spelled⟩ := List.mem_flatMap.mp listed
  obtain ⟨_, -, same⟩ := List.mem_map.mp spelled
  exact (Prod.mk.inj same).2 ▸ member

theorem switch_mem_of_switch? {spelling : String} (found : scope.switch? spelling = some switch) :
    switch ∈ scope.switches := by
  obtain ⟨front, back, split, -⟩ := List.lookup_eq_some_iff.mp found
  have listed : (spelling, switch) ∈ scope.spellings := by
    rw [split]
    exact List.mem_append_right _ List.mem_cons_self
  exact switch_mem_of_spelling listed

theorem switch_mem_of_candidates (member : written ∈ candidates scope text) :
    written.switch ∈ scope.switches := by
  unfold candidates at member
  split at member
  · obtain ⟨entry, kept, rfl⟩ := List.mem_map.mp member
    exact switch_mem_of_spelling (List.mem_filter.mp kept).1
  · obtain ⟨entry, listed, fits⟩ := List.mem_filterMap.mp member
    split at fits
    · cases fits
      exact switch_mem_of_spelling listed
    · split at fits
      · cases fits
        exact switch_mem_of_spelling listed
      · cases fits
  · cases member

theorem tokenOf_cases (found : tokenOf scope text = .ok token) :
    token = .operand text ∨ token = .unknown text ∨
      ∃ written, token = .switch text written ∧ written.switch ∈ scope.switches := by
  unfold tokenOf at found
  split at found
  · dsimp only at found
    split at found
    · rename_i known
      cases found
      exact Or.inr (Or.inr ⟨_, rfl, switch_mem_of_switch? known⟩)
    · rename_i known
      cases found
      obtain ⟨_, -, known⟩ := Option.bind_eq_some_iff.mp known
      exact Or.inr (Or.inr ⟨_, rfl, switch_mem_of_switch? known⟩)
    · rename_i only
      cases found
      exact Or.inr (Or.inr ⟨_, rfl, switch_mem_of_candidates (only ▸ List.mem_singleton_self _)⟩)
    · cases found
    · cases found
      split
      · exact Or.inl rfl
      · exact Or.inr (Or.inl rfl)
  · cases found
    exact Or.inl rfl

theorem known_of_tokenOf (found : tokenOf scope text = .ok (.switch text written)) :
    written.switch ∈ scope.switches := by
  rcases tokenOf_cases found with same | same | ⟨_, same, known⟩
  · cases same
  · cases same
  · cases same
    exact known

theorem text_of_tokenOf (found : tokenOf scope text = .ok token) : token.text = text := by
  rcases tokenOf_cases found with rfl | rfl | ⟨written, rfl, -⟩ <;> rfl

theorem tokens_divider (texts : List String) :
    tokens scope ("--" :: texts) = .ok (.divider :: texts.map .operand) :=
  if_pos rfl

theorem tokens_cons_iff {texts : List String} (noDivider : text ≠ "--") :
    tokens scope (text :: texts) = .ok words ↔
      ∃ token others, tokenOf scope text = .ok token ∧ tokens scope texts = .ok others ∧
        token :: others = words := by
  rw [tokens, if_neg noDivider]
  cases tokenOf scope text with
  | error error => simp
  | ok token =>
      cases tokens scope texts with
      | error error => simp [Except.map]
      | ok others => simp [Except.map]

theorem exists_tokens_cons_iff {texts : List String} (noDivider : text ≠ "--") :
    (∃ words, tokens scope (text :: texts) = .ok words) ↔
      (∃ token, tokenOf scope text = .ok token) ∧ ∃ words, tokens scope texts = .ok words := by
  constructor
  · rintro ⟨words, tokenized⟩
    obtain ⟨token, others, found, behind, -⟩ := (tokens_cons_iff noDivider).mp tokenized
    exact ⟨⟨token, found⟩, others, behind⟩
  · rintro ⟨⟨token, found⟩, others, behind⟩
    exact ⟨_, (tokens_cons_iff noDivider).mpr ⟨token, others, found, behind, rfl⟩⟩

theorem texts_of_tokens (tokenized : tokens scope arguments = .ok words) :
    words.map Token.text = arguments := by
  induction arguments generalizing words with
  | nil =>
      cases tokenized
      rfl
  | cons text texts ih =>
      by_cases divider : text = "--"
      · subst divider
        rw [tokens_divider] at tokenized
        cases tokenized
        simp [Token.text, Function.comp_def]
      · obtain ⟨token, others, found, behind, rfl⟩ := (tokens_cons_iff divider).mp tokenized
        rw [List.map_cons, text_of_tokenOf found, ih behind]

theorem eq_nil_of_tokens (tokenized : tokens scope arguments = .ok []) : arguments = [] := by
  have texts := texts_of_tokens tokenized
  exact texts.symm

theorem tokens_eq_ok_cons (noDivider : token ≠ .divider)
    (tokenized : tokens scope arguments = .ok (token :: words)) :
    ∃ texts, arguments = token.text :: texts ∧ token.text ≠ "--" ∧
      tokenOf scope token.text = .ok token ∧ tokens scope texts = .ok words := by
  cases arguments with
  | nil => cases tokenized
  | cons text texts =>
      by_cases divider : text = "--"
      · subst divider
        rw [tokens_divider] at tokenized
        cases tokenized
        exact absurd rfl noDivider
      · obtain ⟨token', others, found, behind, same⟩ := (tokens_cons_iff divider).mp tokenized
        cases same
        rw [text_of_tokenOf found]
        exact ⟨texts, rfl, divider, found, behind⟩

theorem tokens_eq_ok_divider (tokenized : tokens scope arguments = .ok (.divider :: words)) :
    ∃ texts, arguments = "--" :: texts ∧ words = texts.map .operand := by
  cases arguments with
  | nil => cases tokenized
  | cons text texts =>
      by_cases divider : text = "--"
      · subst divider
        rw [tokens_divider] at tokenized
        cases tokenized
        exact ⟨texts, rfl, rfl⟩
      · obtain ⟨token, others, found, -, same⟩ := (tokens_cons_iff divider).mp tokenized
        cases same
        rcases tokenOf_cases found with same | same | ⟨_, same, _⟩ <;> cases same

theorem known_of_tokens (tokenized : tokens scope arguments = .ok words)
    (member : .switch text written ∈ words) : written.switch ∈ scope.switches := by
  induction arguments generalizing words with
  | nil =>
      cases tokenized
      cases member
  | cons first texts ih =>
      by_cases divider : first = "--"
      · subst divider
        rw [tokens_divider] at tokenized
        cases tokenized
        simp at member
      · obtain ⟨token, others, found, behind, rfl⟩ := (tokens_cons_iff divider).mp tokenized
        rcases List.mem_cons.mp member with rfl | member
        · exact known_of_tokenOf ((text_of_tokenOf found) ▸ found)
        · exact ih behind member

/-! ### Clusters -/

structure Cluster.Within (scope : Scope) (cluster : Cluster) : Prop where
  complete : ∀ entry ∈ cluster.complete, entry.1 ∈ scope.switches
  wanting : ∀ switch ∈ cluster.wanting, switch ∈ scope.switches

namespace Cluster

theorem within_single (known : switch ∈ scope.switches) : (single switch).Within scope := by
  unfold single
  split
  · exact ⟨by simp, by simpa using known⟩
  · exact ⟨by simpa using known, by simp⟩

theorem within_withValue (known : switch ∈ scope.switches) (text : String) :
    (withValue switch text).Within scope :=
  ⟨by simpa [withValue] using known, by simp [withValue]⟩

theorem ofLetters_cons_eq_ok {letter : Char} {letters : List Char}
    (noValue : switch.takesValue = false)
    (found : ofLetters scope switch (letter :: letters) = .ok cluster) :
    ∃ further others, scope.switch? (String.ofList ['-', letter]) = some further ∧
      ofLetters scope further letters = .ok others ∧ others.behind switch = cluster := by
  rw [ofLetters, noValue, if_neg Bool.false_ne_true] at found
  split at found
  · rename_i further there
    cases behind : ofLetters scope further letters with
    | error error =>
        rw [behind] at found
        cases found
    | ok others =>
        rw [behind] at found
        exact ⟨further, others, there, behind, Except.ok.inj found⟩
  · cases found

theorem within_ofLetters {letters : List Char} (known : switch ∈ scope.switches)
    (found : ofLetters scope switch letters = .ok cluster) : cluster.Within scope := by
  induction letters generalizing switch cluster with
  | nil =>
      cases found
      exact within_single known
  | cons letter letters ih =>
      cases takes : switch.takesValue with
      | true =>
          rw [ofLetters, if_pos takes] at found
          cases found
          exact within_withValue known _
      | false =>
          obtain ⟨further, others, there, behind, rfl⟩ := ofLetters_cons_eq_ok takes found
          have below := ih (switch_mem_of_switch? there) behind
          exact ⟨List.forall_mem_cons.mpr ⟨known, below.complete⟩, below.wanting⟩

theorem complete_ofLetters {letters : List Char} (noValue : switch.takesValue = false)
    (found : ofLetters scope switch letters = .ok cluster) :
    ∃ others, cluster.complete = (switch, none) :: others := by
  cases letters with
  | nil =>
      cases found
      rw [single, noValue, if_neg Bool.false_ne_true]
      exact ⟨[], rfl⟩
  | cons letter letters =>
      obtain ⟨-, others, -, -, rfl⟩ := ofLetters_cons_eq_ok noValue found
      exact ⟨others.complete, rfl⟩

end Cluster

theorem Written.within_of_cluster (known : written.switch ∈ scope.switches)
    (found : written.cluster scope = .ok cluster) : cluster.Within scope := by
  unfold Written.cluster at found
  split at found
  · cases found
    exact Cluster.within_single known
  · split at found
    · cases found
      exact Cluster.within_withValue known _
    · split at found
      · exact Cluster.within_ofLetters known found
      · cases found

theorem Written.cluster_of_takesValue (takes : written.switch.takesValue = true) :
    written.cluster scope = .ok (match written.attached with
      | none => ⟨[], some written.switch⟩
      | some text => .withValue written.switch text) := by
  unfold Written.cluster
  cases written.attached with
  | none => rw [Cluster.single, if_pos takes]
  | some text => exact if_pos takes

theorem Written.complete_of_cluster (noValue : written.switch.takesValue = false)
    (found : written.cluster scope = .ok cluster) :
    ∃ others, cluster.complete = (written.switch, none) :: others := by
  unfold Written.cluster at found
  split at found
  · cases found
    have alone : Cluster.ofLetters scope written.switch [] = .ok (.single written.switch) := rfl
    exact Cluster.complete_ofLetters noValue alone
  · rw [noValue, if_neg Bool.false_ne_true] at found
    split at found
    · exact Cluster.complete_ofLetters noValue found
    · cases found

/-! ### Taking switches into account -/

def Given.withoutOutput (given : Given) : Given := { given with output := none }

namespace Reading

variable {value : Option SwitchValue} {found : List (Switch × Option SwitchValue)}

def withoutOutput (reading : Reading) : Reading :=
  { reading with given := reading.given.withoutOutput }

/-- A switch changes nothing of a reading but what is given. A switch other than the output leaves
the output alone and counts the same without it. -/
theorem take_spec (taken : reading.take scope switch value = .ok next) :
    next = { reading with given := next.given } ∧
      (switch ≠ .output → next.given.output = reading.given.output ∧
        reading.withoutOutput.take scope switch value = .ok next.withoutOutput) := by
  cases switch with
  | help | version => cases taken
  | verbose | quiet | config | encoding =>
      cases taken
      exact ⟨rfl, fun _ => ⟨rfl, rfl⟩⟩
  | output =>
      cases taken
      exact ⟨rfl, fun other => absurd rfl other⟩
  | format =>
      unfold take at taken ⊢
      dsimp only at taken ⊢
      split at taken
      · cases taken
        exact ⟨rfl, fun _ => ⟨rfl, rfl⟩⟩
      · split at taken
        · cases taken
          exact ⟨rfl, fun _ => ⟨rfl, rfl⟩⟩
        · cases taken

theorem withoutOutput_of_take (taken : reading.take scope .output value = .ok next) :
    next.withoutOutput = reading.withoutOutput := by
  cases taken
  rfl

theorem takeAll_cons_eq_ok {entry : Switch × Option SwitchValue}
    (taken : reading.takeAll scope (entry :: found) = .ok final) :
    ∃ next, reading.take scope entry.1 entry.2 = .ok next ∧
      next.takeAll scope found = .ok final := by
  unfold takeAll at taken
  split at taken
  · rename_i next first
    exact ⟨next, first, taken⟩
  · cases taken

theorem takeAll_eq_with_given (taken : reading.takeAll scope found = .ok next) :
    next = { reading with given := next.given } := by
  induction found generalizing reading with
  | nil =>
      cases taken
      rfl
  | cons entry found ih =>
      obtain ⟨between, first, others⟩ := takeAll_cons_eq_ok taken
      rw [ih others, (take_spec first).1]

theorem takeAll_output (others : ∀ entry ∈ found, entry.1 ≠ .output)
    (taken : reading.takeAll scope found = .ok next) :
    next.given.output = reading.given.output := by
  induction found generalizing reading with
  | nil =>
      cases taken
      rfl
  | cons entry found ih =>
      obtain ⟨other, others⟩ := List.forall_mem_cons.mp others
      obtain ⟨between, first, behind⟩ := takeAll_cons_eq_ok taken
      exact (ih others behind).trans ((take_spec first).2 other).1

theorem takeAll_singleton_iff :
    reading.takeAll scope [(switch, value)] = .ok next ↔
      reading.take scope switch value = .ok next := by
  constructor
  · intro taken
    obtain ⟨between, first, behind⟩ := takeAll_cons_eq_ok taken
    cases behind
    exact first
  · intro taken
    rw [takeAll, taken]
    rfl

end Reading

/-! ### Readings -/

/-- A reading that comes to its end, one rule for each way to go on. What may be skipped is left
open, since nothing is skipped in a reading without a rest. -/
inductive Reads (scope : Scope) : (behindPath : Bool) → List Token → Reading → Reading → Prop
  | done {behindPath : Bool} {reading : Reading}
      (path : scope.operand = .path → reading.path.isSome) : Reads scope behindPath [] reading reading
  | skipped {behindPath : Bool} {token : Token} {rest : List Token} {reading final : Reading}
      (behind : Reads scope false rest (reading.skip token.text) final) :
      Reads scope behindPath (token :: rest) reading final
  /-- A lone divider where a command could stand. -/
  | ended {behindPath : Bool} {reading : Reading} :
      Reads scope behindPath [.divider] reading (reading.skip "--")
  | switches {behindPath : Bool} {text : String} {written : Written} {cluster : Cluster}
      {rest : List Token} {reading next final : Reading}
      (found : written.cluster scope = .ok cluster) (complete : cluster.wanting = none)
      (taken : reading.takeAll scope cluster.complete = .ok next)
      (behind : Reads scope false rest next final) :
      Reads scope behindPath (.switch text written :: rest) reading final
  | valued {behindPath : Bool} {text value : String} {written : Written} {cluster : Cluster}
      {switch : Switch} {rest : List Token} {reading next final : Reading}
      (found : written.cluster scope = .ok cluster) (wanting : cluster.wanting = some switch)
      (taken : reading.takeAll scope (cluster.completed switch value) = .ok next)
      (behind : Reads scope false rest next final) :
      Reads scope behindPath (.switch text written :: .operand value :: rest) reading final
  | divided {behindPath : Bool} {rest : List Token} {reading final : Reading}
      (operand : scope.operand = .path)
      (fits : behindPath = true ∨ reading.path = none)
      (behind : Reads scope false rest reading final) :
      Reads scope behindPath (.divider :: rest) reading final
  | path {behindPath : Bool} {text : String} {rest : List Token} {reading final : Reading}
      (operand : scope.operand = .path) (noPath : reading.path = none)
      (behind : Reads scope true rest { reading with path := some text } final) :
      Reads scope behindPath (.operand text :: rest) reading final
  | command {behindPath : Bool} {text title : String} {choices : List (String × Scope)}
      {command : Scope} {rest : List Token} {reading : Reading}
      (operand : scope.operand = .command title choices)
      (known : choices.lookup text = some command) :
      Reads scope behindPath (.operand text :: rest) reading
        { reading with command := some (command, rest.map Token.text) }

theorem reads_of_read (came : Reading.read scope behindPath words reading = .ok final) :
    Reads scope behindPath words reading final := by
  fun_induction Reading.read scope behindPath words reading with
  | case1 | case4 | case6 | case8 | case9 | case13 | case17 => cases came
  | case2 behindPath reading lacks =>
      cases came
      refine .done fun operand => ?_
      simpa [operand, Option.isSome_iff_ne_none] using lacks
  | case3 behindPath text rest reading ih => exact .skipped (ih came)
  | case5 behindPath text written rest reading cluster found complete next taken ih =>
      exact .switches found complete taken (ih came)
  | case7 behindPath text written reading cluster found switch wanting value rest next taken ih =>
      exact .valued found wanting taken (ih came)
  | case10 behindPath rest reading operand fits ih =>
      refine .divided operand ?_ (ih came)
      rw [Bool.or_eq_true, Bool.and_eq_true, Option.isNone_iff_eq_none] at fits
      exact fits.imp_right And.left
  | case11 behindPath rest reading operand fits ih => exact .skipped (ih came)
  | case12 behindPath rest reading title choices operand nothing =>
      cases came
      rw [List.isEmpty_iff.mp nothing]
      exact .ended
  | case14 behindPath rest reading operand ih => exact .skipped (ih came)
  | case15 behindPath text rest reading noPath operand ih => exact .path operand noPath (ih came)
  | case16 behindPath text rest reading title choices operand command known =>
      cases came
      exact .command operand known
  | case18 behindPath text rest reading noCommand noPath ih =>
      exact .skipped (ih came)

namespace Reads

theorem surplus_prefix (reads : Reads scope behindPath words reading final) :
    reading.surplus <+: final.surplus := by
  induction reads with
  | done | command => exact List.prefix_rfl
  | skipped _ ih => exact (List.prefix_append _ _).trans ih
  | ended => exact List.prefix_append _ _
  | switches _ _ taken _ ih | valued _ _ taken _ ih =>
      rw [Reading.takeAll_eq_with_given taken] at ih
      exact ih
  | divided _ _ _ ih | path _ _ _ ih => exact ih

theorem not_skipped (reads : Reads scope behindPath words (reading.skip text) final) :
    final.surplus ≠ [] := by
  intro clean
  have grown := reads.surplus_prefix
  rw [clean, List.prefix_nil] at grown
  exact List.append_ne_nil_of_right_ne_nil _ (List.cons_ne_nil _ _) grown

end Reads

theorem read_switches (found : written.cluster scope = .ok cluster)
    (complete : cluster.wanting = none) (taken : reading.takeAll scope cluster.complete = .ok next) :
    Reading.read scope behindPath (.switch text written :: words) reading =
      Reading.read scope false words next := by
  simp only [Reading.read, found, complete, taken]

theorem read_valued {value : String}
    (found : written.cluster scope = .ok cluster) (wanting : cluster.wanting = some switch)
    (taken : reading.takeAll scope (cluster.completed switch value) = .ok next) :
    Reading.read scope behindPath (.switch text written :: .operand value :: words) reading =
      Reading.read scope false words next := by
  simp only [Reading.read, found, wanting, taken]

/-! ### Commands -/

theorem Reads.command_cases (reads : Reads scope behindPath words reading final) :
    final.command = reading.command ∨ ∃ title choices name command rest,
      scope.operand = .command title choices ∧ choices.lookup name = some command ∧
        final.command = some (command, rest) := by
  induction reads with
  | done _ | ended => exact Or.inl rfl
  | skipped _ ih | divided _ _ _ ih | path _ _ _ ih => exact ih
  | switches _ _ taken _ ih | valued _ _ taken _ ih =>
      rw [Reading.takeAll_eq_with_given taken] at ih
      exact ih
  | command operand known => exact Or.inr ⟨_, _, _, _, _, operand, known, rfl⟩

/-- What is read in front of a command stays as it is with other arguments for the command. -/
theorem Reads.with_other_arguments {title : String} {choices : List (String × Scope)}
    {command : Scope} (reads : Reads scope behindPath words reading final)
    (operand : scope.operand = .command title choices)
    (tokenized : tokens scope arguments = .ok words) (clean : final.surplus = [])
    (fresh : reading.command = none) (led : final.command = some (command, rest)) :
    ∃ front, arguments = front ++ rest ∧ (∃ words, tokens scope rest = .ok words) ∧
      ∀ other, (∃ words, tokens scope other = .ok words) →
        ∃ words, tokens scope (front ++ other) = .ok words ∧
          Reading.read scope behindPath words reading =
            .ok { final with command := some (command, other) } := by
  -- No divider stands in front of a command, so each argument there is told apart by itself.
  induction reads generalizing arguments with
  | done _ => cases fresh.symm.trans led
  | ended => cases fresh.symm.trans led
  | skipped behind _ => exact absurd clean behind.not_skipped
  | divided noCommand _ _ _ | path noCommand _ _ _ => cases operand.symm.trans noCommand
  | switches found complete taken _ ih =>
      obtain ⟨texts, rfl, noDivider, token, behind⟩ :=
        tokens_eq_ok_cons Token.noConfusion tokenized
      rw [Reading.takeAll_eq_with_given taken] at ih
      obtain ⟨front, rfl, further, others⟩ := ih behind clean fresh led
      refine ⟨_ :: front, rfl, further, fun other told => ?_⟩
      obtain ⟨words, before, came⟩ := others other told
      refine ⟨_, (tokens_cons_iff noDivider).mpr ⟨_, _, token, before, rfl⟩, ?_⟩
      rw [read_switches found complete taken, Reading.takeAll_eq_with_given taken]
      exact came
  | valued found wanting taken _ ih =>
      obtain ⟨texts, rfl, noDivider, token, behind⟩ :=
        tokens_eq_ok_cons Token.noConfusion tokenized
      obtain ⟨texts, rfl, noDivider', value, behind⟩ :=
        tokens_eq_ok_cons Token.noConfusion behind
      rw [Reading.takeAll_eq_with_given taken] at ih
      obtain ⟨front, rfl, further, others⟩ := ih behind clean fresh led
      refine ⟨_ :: _ :: front, rfl, further, fun other told => ?_⟩
      obtain ⟨words, before, came⟩ := others other told
      refine ⟨_, (tokens_cons_iff noDivider).mpr ⟨_, _, token,
        (tokens_cons_iff noDivider').mpr ⟨_, _, value, before, rfl⟩, rfl⟩, ?_⟩
      rw [read_valued found wanting taken, Reading.takeAll_eq_with_given taken]
      exact came
  | command operand' known =>
      cases operand.symm.trans operand'
      cases led
      obtain ⟨texts, rfl, noDivider, token, behind⟩ :=
        tokens_eq_ok_cons Token.noConfusion tokenized
      rw [texts_of_tokens behind]
      refine ⟨[_], rfl, ⟨_, behind⟩, fun other told => ?_⟩
      obtain ⟨words, before⟩ := told
      refine ⟨_, (tokens_cons_iff noDivider).mpr ⟨_, _, token, before, rfl⟩, ?_⟩
      simp only [Reading.read, operand, known, texts_of_tokens before]

theorem Reads.output (reads : Reads scope behindPath words reading final)
    (known : ∀ text written, Token.switch text written ∈ words → written.switch ∈ scope.switches)
    (noOutput : .output ∉ scope.switches) : final.given.output = reading.given.output := by
  induction reads with
  | done _ | ended | command _ _ => rfl
  | skipped _ ih | divided _ _ _ ih | path _ _ _ ih =>
      exact ih fun text written member => known text written (List.mem_cons_of_mem _ member)
  | switches found _ taken _ ih =>
      have within := Written.within_of_cluster (known _ _ List.mem_cons_self) found
      refine (ih fun text written member => known text written (List.mem_cons_of_mem _ member)).trans
        (Reading.takeAll_output (fun entry member output => noOutput ?_) taken)
      exact output ▸ within.complete entry member
  | valued found wanting taken _ ih =>
      have within := Written.within_of_cluster (known _ _ List.mem_cons_self) found
      refine (ih fun text written member => known text written
        (List.mem_cons_of_mem _ (List.mem_cons_of_mem _ member))).trans
        (Reading.takeAll_output (fun entry member output => noOutput ?_) taken)
      rcases List.mem_append.mp member with member | member
      · exact output ▸ within.complete entry member
      · rw [List.mem_singleton.mp member] at output
        exact output ▸ within.wanting _ wanting

end CommentOutline.CommandLine
