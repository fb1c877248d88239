import CommentOutline.Proofs.CommandLine.Readings

set_option autoImplicit false

/-! Argument lists of the outline command without the output switch: the command takes what is left
just as it took it before. -/

namespace CommentOutline.CommandLine

variable {scope : Scope} {written : Written} {cluster : Cluster} {token : Token} {text : String}
variable {arguments rest : List String} {words : List Token} {reading next final : Reading}
variable {behindPath : Bool}

/-! ### What the outline command accepts -/

/-- The argument lists that the outline command takes without a rest, one rule for each way to
go on. -/
inductive Accepts : (behindPath : Bool) → List String → Reading → Reading → Prop
  | done {behindPath : Bool} {reading : Reading} (path : reading.path.isSome) :
      Accepts behindPath [] reading reading
  /-- A divider next to the path before it, and nothing behind. -/
  | closed {reading : Reading} (path : reading.path.isSome) : Accepts true ["--"] reading reading
  /-- The path behind a divider. -/
  | divided {behindPath : Bool} {text : String} {reading : Reading} (noPath : reading.path = none) :
      Accepts behindPath ["--", text] reading { reading with path := some text }
  | path {behindPath : Bool} {text : String} {rest : List String} {reading final : Reading}
      (noPath : reading.path = none) (operand : tokenOf .outline text = .ok (.operand text))
      (behind : Accepts true rest { reading with path := some text } final) :
      Accepts behindPath (text :: rest) reading final
  /-- A switch with its value in one argument. -/
  | attached {behindPath : Bool} {text value : String} {written : Written} {rest : List String}
      {reading next final : Reading}
      (found : tokenOf .outline text = .ok (.switch text written))
      (takes : written.switch.takesValue = true) (attached : written.attached = some value)
      (taken : reading.take .outline written.switch (some (.ofText value)) = .ok next)
      (behind : Accepts false rest next final) : Accepts behindPath (text :: rest) reading final
  | separate {behindPath : Bool} {text value : String} {written : Written} {rest : List String}
      {reading next final : Reading}
      (found : tokenOf .outline text = .ok (.switch text written))
      (takes : written.switch.takesValue = true) (alone : written.attached = none)
      (operand : tokenOf .outline value = .ok (.operand value))
      (taken : reading.take .outline written.switch (some (.given value)) = .ok next)
      (behind : Accepts false rest next final) :
      Accepts behindPath (text :: value :: rest) reading final

theorem operands_of_reads {texts : List String}
    (reads : Reads .outline behindPath (texts.map .operand) reading final)
    (clean : final.surplus = []) :
    texts = [] ∧ reading.path.isSome ∧ final = reading ∨
      ∃ text, texts = [text] ∧ reading.path = none ∧
        final = { reading with path := some text } := by
  cases texts with
  | nil =>
      cases reads with
      | done path => exact Or.inl ⟨rfl, path rfl, rfl⟩
  | cons text texts =>
      cases reads with
      | skipped behind => exact absurd clean behind.not_skipped
      | path _ noPath behind =>
          cases texts with
          | nil =>
              cases behind with
              | done _ => exact Or.inr ⟨text, rfl, noPath, rfl⟩
          | cons _ _ =>
              cases behind with
              | skipped behind => exact absurd clean behind.not_skipped
              | path _ second _ => cases second
              | command operand _ => cases operand
      | command operand _ => cases operand

/-- The only switch of the outline command without a value ends every reading, so a cluster that is
taken is one switch and its value. -/
theorem cluster_of_taken {more : List (Switch × Option SwitchValue)}
    (found : tokenOf .outline text = .ok (.switch text written))
    (clustered : written.cluster .outline = .ok cluster)
    (taken : reading.takeAll .outline (cluster.complete ++ more) = .ok next) :
    written.switch.takesValue = true ∧
      (written.attached = none ∧ cluster = ⟨[], some written.switch⟩ ∨
        ∃ value, written.attached = some value ∧ cluster = .withValue written.switch value) := by
  cases takes : written.switch.takesValue with
  | false =>
      obtain ⟨others, first⟩ := Written.complete_of_cluster takes clustered
      rw [first, List.cons_append] at taken
      obtain ⟨_, helped, _⟩ := Reading.takeAll_cons_eq_ok taken
      have known := known_of_tokenOf found
      simp only [Scope.switches, List.mem_cons, List.not_mem_nil, or_false] at known
      rcases known with switch | switch | switch | switch <;> rw [switch] at takes helped
      · cases helped
      all_goals cases takes
  | true =>
      rw [Written.cluster_of_takesValue takes, Except.ok.injEq] at clustered
      refine ⟨rfl, ?_⟩
      cases attached : written.attached with
      | none =>
          rw [attached] at clustered
          exact Or.inl ⟨rfl, clustered.symm⟩
      | some value =>
          rw [attached] at clustered
          exact Or.inr ⟨value, rfl, clustered.symm⟩

theorem accepts_of_reads (tokenized : tokens .outline arguments = .ok words)
    (reads : Reads .outline behindPath words reading final) (clean : final.surplus = []) :
    Accepts behindPath arguments reading final := by
  induction reads generalizing arguments with
  | done path => exact eq_nil_of_tokens tokenized ▸ .done (path rfl)
  | skipped behind => exact absurd clean behind.not_skipped
  | ended => exact absurd clean (List.append_ne_nil_of_right_ne_nil _ (List.cons_ne_nil _ _))
  | switches clustered complete taken _ ih =>
      obtain ⟨texts, rfl, -, token, behind⟩ := tokens_eq_ok_cons Token.noConfusion tokenized
      rw [← List.append_nil (Cluster.complete _)] at taken
      obtain ⟨takes, ⟨-, rfl⟩ | ⟨value, attached, rfl⟩⟩ := cluster_of_taken token clustered taken
      · cases complete
      · exact .attached token takes attached (Reading.takeAll_singleton_iff.mp taken)
          (ih behind clean)
  | valued clustered wanting taken _ ih =>
      obtain ⟨texts, rfl, -, token, behind⟩ := tokens_eq_ok_cons Token.noConfusion tokenized
      obtain ⟨texts, rfl, -, operand, behind⟩ := tokens_eq_ok_cons Token.noConfusion behind
      obtain ⟨takes, ⟨alone, rfl⟩ | ⟨value, -, rfl⟩⟩ := cluster_of_taken token clustered taken
      · cases wanting
        exact .separate token takes alone operand (Reading.takeAll_singleton_iff.mp taken)
          (ih behind clean)
      · cases wanting
  | divided _ fits behind _ =>
      obtain ⟨texts, rfl, rfl⟩ := tokens_eq_ok_divider tokenized
      rcases operands_of_reads behind clean with ⟨rfl, path, rfl⟩ | ⟨text, rfl, noPath, rfl⟩
      · rcases fits with rfl | noPath
        · exact .closed path
        · rw [noPath] at path
          cases path
      · exact .divided noPath
  | path _ noPath _ ih =>
      obtain ⟨texts, rfl, -, token, behind⟩ := tokens_eq_ok_cons Token.noConfusion tokenized
      exact .path noPath token (ih behind clean)
  | command operand _ => cases operand

theorem tokenOf_divider : tokenOf .outline "--" ≠ .ok token := by
  have refused : ∃ error, tokenOf .outline "--" = .error error := ⟨_, rfl⟩
  obtain ⟨error, refused⟩ := refused
  rw [refused]
  exact fun found => nomatch found

namespace Accepts

theorem ne_divider (found : tokenOf .outline text = .ok token) : text ≠ "--" := by
  rintro rfl
  exact tokenOf_divider found

theorem exists_read (accepted : Accepts behindPath arguments reading final) :
    ∃ words, tokens .outline arguments = .ok words ∧
      Reading.read .outline behindPath words reading = .ok final := by
  induction accepted with
  | done path =>
      exact ⟨[], rfl, by simp [Reading.read, Option.isSome_iff_ne_none.mp path]⟩
  | closed path =>
      exact ⟨[.divider], tokens_divider [],
        by simp [Reading.read, Scope.operand, Option.isSome_iff_ne_none.mp path]⟩
  | divided noPath =>
      exact ⟨_, tokens_divider _, by simp [Reading.read, Scope.operand, noPath]⟩
  | path noPath operand _ ih =>
      obtain ⟨words, tokenized, came⟩ := ih
      refine ⟨_, (tokens_cons_iff (ne_divider operand)).mpr ⟨_, _, operand, tokenized, rfl⟩, ?_⟩
      simp only [Reading.read, Scope.operand, noPath]
      exact came
  | attached found takes attached taken _ ih =>
      obtain ⟨words, tokenized, came⟩ := ih
      refine ⟨_, (tokens_cons_iff (ne_divider found)).mpr ⟨_, _, found, tokenized, rfl⟩, ?_⟩
      rw [read_switches (Written.cluster_of_takesValue takes) (by rw [attached]; rfl)
        (by rw [attached]; exact Reading.takeAll_singleton_iff.mpr taken)]
      exact came
  | separate found takes alone operand taken _ ih =>
      obtain ⟨words, tokenized, came⟩ := ih
      refine ⟨_, (tokens_cons_iff (ne_divider found)).mpr ⟨_, _, found,
        (tokens_cons_iff (ne_divider operand)).mpr ⟨_, _, operand, tokenized, rfl⟩, rfl⟩, ?_⟩
      rw [read_valued (Written.cluster_of_takesValue takes) (by rw [alone])
        (by rw [alone]; exact Reading.takeAll_singleton_iff.mpr taken)]
      exact came

end Accepts

/-! ### The outline command without an output -/

/-- The arguments of the outline command without those for the output: the switch, and the argument
behind it where that is the value. -/
def dropOutput : List String → List String
  | [] => []
  | text :: rest =>
      if text = "--" then text :: rest
      else
        match tokenOf .outline text with
        | .ok (.switch _ written) =>
            if written.switch = .output then
              match written.attached, rest with
              | none, [] => []
              | none, _ :: others => dropOutput others
              | some _, others => dropOutput others
            else text :: dropOutput rest
        | _ => text :: dropOutput rest

theorem dropOutput_operand (found : tokenOf .outline text = .ok (.operand text)) :
    dropOutput (text :: rest) = text :: dropOutput rest := by
  rw [dropOutput, if_neg (Accepts.ne_divider found), found]

theorem dropOutput_other (found : tokenOf .outline text = .ok (.switch text written))
    (other : written.switch ≠ .output) : dropOutput (text :: rest) = text :: dropOutput rest := by
  simp only [dropOutput, if_neg (Accepts.ne_divider found), found, if_neg other]

theorem dropOutput_attached {value : String}
    (found : tokenOf .outline text = .ok (.switch text written))
    (output : written.switch = .output) (attached : written.attached = some value) :
    dropOutput (text :: rest) = dropOutput rest := by
  simp only [dropOutput, if_neg (Accepts.ne_divider found), found, if_pos output, attached]

theorem dropOutput_separate {value : String}
    (found : tokenOf .outline text = .ok (.switch text written))
    (output : written.switch = .output) (alone : written.attached = none) :
    dropOutput (text :: value :: rest) = dropOutput rest := by
  simp only [dropOutput, if_neg (Accepts.ne_divider found), found, if_pos output, alone]

/-- The arguments are accepted without the output just as with it. A divider may now stand next to
the path, so the mark for that may be set where it was not. -/
theorem Accepts.withoutOutput {marked : Bool}
    (accepted : Accepts behindPath arguments reading final)
    (mark : behindPath = true → marked = true) :
    Accepts marked (dropOutput arguments) reading.withoutOutput final.withoutOutput := by
  induction accepted generalizing marked with
  | done path => exact .done path
  | closed path =>
      cases mark rfl
      exact .closed path
  | divided noPath => exact .divided noPath
  | path noPath operand _ ih =>
      rw [dropOutput_operand operand]
      exact .path noPath operand (ih id)
  | @attached _ _ _ written _ _ _ _ found takes attached taken _ ih =>
      by_cases output : written.switch = .output
      · rw [dropOutput_attached found output attached]
        rw [output] at taken
        rw [← Reading.withoutOutput_of_take taken]
        exact ih Bool.noConfusion
      · rw [dropOutput_other found output]
        exact .attached found takes attached ((Reading.take_spec taken).2 output).2 (ih id)
  | @separate _ _ _ written _ _ _ _ found takes alone operand taken _ ih =>
      by_cases output : written.switch = .output
      · rw [dropOutput_separate found output alone]
        rw [output] at taken
        rw [← Reading.withoutOutput_of_take taken]
        exact ih Bool.noConfusion
      · rw [dropOutput_other found output, dropOutput_operand operand]
        exact .separate found takes alone operand ((Reading.take_spec taken).2 output).2 (ih id)

theorem Accepts.exists_tokens (accepted : Accepts behindPath arguments reading final)
    (tokenized : ∃ words, tokens scope arguments = .ok words) :
    ∃ words, tokens scope (dropOutput arguments) = .ok words := by
  induction accepted with
  | done _ | closed _ | divided _ => exact tokenized
  | path _ operand _ ih =>
      rw [exists_tokens_cons_iff (ne_divider operand)] at tokenized
      rw [dropOutput_operand operand, exists_tokens_cons_iff (ne_divider operand)]
      exact tokenized.imp_right ih
  | @attached _ _ _ written _ _ _ _ found _ attached _ _ ih =>
      rw [exists_tokens_cons_iff (ne_divider found)] at tokenized
      by_cases output : written.switch = .output
      · rw [dropOutput_attached found output attached]
        exact ih tokenized.2
      · rw [dropOutput_other found output, exists_tokens_cons_iff (ne_divider found)]
        exact tokenized.imp_right ih
  | @separate _ _ _ written _ _ _ _ found _ alone operand _ _ ih =>
      rw [exists_tokens_cons_iff (ne_divider found),
        exists_tokens_cons_iff (ne_divider operand)] at tokenized
      by_cases output : written.switch = .output
      · rw [dropOutput_separate found output alone]
        exact ih tokenized.2.2
      · rw [dropOutput_other found output, dropOutput_operand operand,
          exists_tokens_cons_iff (ne_divider found), exists_tokens_cons_iff (ne_divider operand)]
        exact tokenized.imp_right (And.imp_right ih)

theorem Accepts.command (accepted : Accepts behindPath arguments reading final) :
    final.command = reading.command := by
  induction accepted with
  | done _ | closed _ | divided _ => rfl
  | path _ _ _ ih => exact ih
  | attached _ _ _ taken _ ih | separate _ _ _ _ taken _ ih =>
      rw [(Reading.take_spec taken).1] at ih
      exact ih

/-! ### The program without an output of the outline command -/

def withoutOutput (arguments : List String) : List String :=
  match readScope .program .nothing arguments with
  | .ok ⟨_, _, some (.outline, rest), _⟩ =>
      arguments.take (arguments.length - rest.length) ++ dropOutput rest
  | _ => arguments

theorem withoutOutput_append {front : List String}
    (came : readScope .program .nothing (front ++ rest) = .ok final)
    (led : final.command = some (.outline, rest)) :
    withoutOutput (front ++ rest) = front ++ dropOutput rest := by
  obtain ⟨given, operand, command, surplus⟩ := final
  cases led
  rw [withoutOutput, came]
  dsimp only
  rw [List.length_append, Nat.add_sub_cancel, List.take_left]

theorem readScope_eq_ok_iff {given : Given} :
    readScope scope given arguments = .ok final ↔ ∃ words, tokens scope arguments = .ok words ∧
      Reading.read scope false words (.start given) = .ok final := by
  unfold readScope
  cases tokens scope arguments with
  | error error => simp
  | ok words => simp

theorem command?_eq_outline_iff {operand : Option String} {path : String} :
    scope.command? operand = some (.outline path) ↔ scope = .outline ∧ operand = some path := by
  cases scope <;> simp [Scope.command?]

theorem follow_succ_eq_ok {depth : Nat} {given : Given} {found : Invocation} {surplus : List String}
    (came : follow (depth + 1) scope given arguments = .ok (found, surplus)) :
    ∃ reading, readScope scope given arguments = .ok reading ∧
      (reading.command = none ∧ found = ⟨reading.given, scope.command? reading.path⟩ ∧
          surplus = reading.surplus ∨
        ∃ command rest below, reading.command = some (command, rest) ∧
          follow depth command reading.given rest = .ok (found, below) ∧
          surplus = reading.surplus ++ below) := by
  unfold follow at came
  split at came
  · cases came
  · rename_i reading here
    refine ⟨reading, here, ?_⟩
    split at came
    · rename_i noCommand
      cases came
      exact Or.inl ⟨noCommand, rfl, rfl⟩
    · rename_i command rest led
      cases further : follow depth command reading.given rest with
      | error stop =>
          rw [further] at came
          cases came
      | ok below =>
          rw [further] at came
          cases came
          exact Or.inr ⟨command, rest, _, led, further, rfl⟩

theorem offered_of_readScope {given : Given} {command : Scope}
    (came : readScope scope given arguments = .ok final)
    (led : final.command = some (command, rest)) :
    ∃ title choices name, scope.operand = .command title choices ∧ (name, command) ∈ choices := by
  obtain ⟨words, -, came⟩ := readScope_eq_ok_iff.mp came
  rcases (reads_of_read came).command_cases with
    same | ⟨title, choices, name, command', rest', operand, known, led'⟩
  · cases same.symm.trans led
  · cases led'.symm.trans led
    obtain ⟨front, back, split, -⟩ := List.lookup_eq_some_iff.mp known
    exact ⟨title, choices, name, operand, split ▸ List.mem_append_right _ List.mem_cons_self⟩

theorem scope_of_follow {depth : Nat} {given given' : Given} {path : String} {surplus : List String}
    (came : follow depth scope given arguments = .ok (⟨given', some (.outline path)⟩, surplus)) :
    scope = .program ∨ scope = .outline := by
  induction depth generalizing scope given arguments surplus with
  | zero =>
      simp only [follow, Except.ok.injEq, Prod.mk.injEq, Invocation.mk.injEq,
        command?_eq_outline_iff] at came
      exact Or.inr came.1.2.1
  | succ depth ih =>
      obtain ⟨reading, here, ⟨-, asked, -⟩ | ⟨command, rest, below, led, further, -⟩⟩ :=
        follow_succ_eq_ok came
      · exact Or.inr (command?_eq_outline_iff.mp (Invocation.mk.inj asked).2.symm).1
      · obtain ⟨title, choices, name, operand, offered⟩ := offered_of_readScope here led
        cases scope with
        | program => exact Or.inl rfl
        | outline => exact Or.inr rfl
        | config =>
            cases operand
            rcases ih further with rfl | rfl <;> simp at offered
        | configShow | configPath | version => cases operand

theorem follow_of_invocation {found : Invocation} (asked : invocation arguments = .ok found) :
    follow 3 .program .nothing arguments = .ok (found, []) := by
  unfold invocation at asked
  split at asked
  · cases asked
  · rename_i came
    cases asked
    exact came
  · cases asked

theorem invocation_eq_outline_iff {given : Given} {path : String} :
    invocation arguments = .ok ⟨given, some (.outline path)⟩ ↔ ∃ reading rest final,
      readScope .program .nothing arguments = .ok reading ∧ reading.surplus = [] ∧
        reading.command = some (.outline, rest) ∧
          readScope .outline reading.given rest = .ok final ∧ final.surplus = [] ∧
            final.given = given ∧ final.path = some path := by
  constructor
  · intro asked
    obtain ⟨reading, first, ⟨-, none_asked, -⟩ | ⟨command, rest, below, led, further, clean⟩⟩ :=
      follow_succ_eq_ok (follow_of_invocation asked)
    · cases none_asked
    obtain ⟨noRest, rfl⟩ := List.append_eq_nil_iff.mp clean.symm
    obtain ⟨title, choices, name, operand, offered⟩ := offered_of_readScope first led
    cases operand
    obtain rfl : command = .outline := by
      rcases scope_of_follow further with rfl | rfl
      · simp at offered
      · rfl
    obtain ⟨final, second, ⟨-, asked, clean'⟩ | ⟨_, _, _, led', -⟩⟩ := follow_succ_eq_ok further
    · obtain ⟨rfl, there⟩ := Invocation.mk.inj asked
      exact ⟨reading, rest, final, first, noRest, led, second, clean'.symm, rfl,
        (command?_eq_outline_iff.mp there.symm).2⟩
    · obtain ⟨_, _, _, operand, -⟩ := offered_of_readScope second led'
      cases operand
  · rintro ⟨reading, rest, final, first, clean, led, second, clean', rfl, there⟩
    obtain ⟨words, tokenized, came⟩ := readScope_eq_ok_iff.mp second
    have noCommand : final.command = none :=
      (accepts_of_reads tokenized (reads_of_read came) clean').command
    simp only [invocation, follow, first, led, second, noCommand, clean, clean', Except.map,
      List.append_nil, Scope.command?, there, Option.map_some]

/-- Without the arguments for the output the same is asked for, but for the output. -/
theorem invocation_withoutOutput {given : Given} {path : String}
    (asked : invocation arguments = .ok ⟨given, some (.outline path)⟩) :
    invocation (withoutOutput arguments) = .ok ⟨given.withoutOutput, some (.outline path)⟩ := by
  obtain ⟨reading, rest, final, first, clean, led, second, clean', rfl, there⟩ :=
    invocation_eq_outline_iff.mp asked
  obtain ⟨words, tokenized, came⟩ := readScope_eq_ok_iff.mp first
  obtain ⟨words', tokenized', came'⟩ := readScope_eq_ok_iff.mp second
  have reads := reads_of_read came
  have accepted := accepts_of_reads tokenized' (reads_of_read came') clean'
  have noOutput : reading.given.withoutOutput = reading.given := by
    have unset : reading.given.output = none :=
      reads.output (fun _ _ => known_of_tokens tokenized) (by decide)
    rw [Given.withoutOutput, ← unset]
  obtain ⟨front, rfl, told, others⟩ :=
    reads.with_other_arguments rfl tokenized clean rfl led
  obtain ⟨later, tokenized, came⟩ := others (dropOutput rest) (accepted.exists_tokens told)
  obtain ⟨later', tokenized', came'⟩ := (accepted.withoutOutput id).exists_read
  rw [invocation_eq_outline_iff, withoutOutput_append first led]
  refine ⟨_, dropOutput rest, final.withoutOutput,
    readScope_eq_ok_iff.mpr ⟨later, tokenized, came⟩, clean, rfl,
    readScope_eq_ok_iff.mpr ⟨later', tokenized', ?_⟩, clean', rfl, there⟩
  have fresh : (Reading.start reading.given).withoutOutput = .start reading.given :=
    congrArg Reading.start noOutput
  exact fresh ▸ came'

/-- Behind a divider nothing is left out. -/
example : withoutOutput ["-q", "outline", "-o", "a", "--output=b", "-oc", "--", "-o"] =
    ["-q", "outline", "--", "-o"] := by decide +kernel

end CommentOutline.CommandLine
