import CommentOutline.Proofs.Comment.Scanning
import CommentOutline.Proofs.Provider.Ledger

set_option autoImplicit false

/-! Settings that are refused. A provider is made of settings, or it is refused. The values of some
settings are not looked at closely before they are used, so their use may fail for another reason:
a marker or a closer that is no text fails when the pattern is written, and a separator that is no
text fails with the first annotation, which may come long after the provider is made. -/

namespace CommentOutline

open Comment (Reading Settings SettingsError Style matchLine? openerTexts? separatorOf)
open Config (Table Value)
open Host (Request)
open Outline

theorem Config.Value.isText_iff (value : Value) :
    value.isText = true ↔ ∃ text, value = .text text := by
  cases value with
  | text text => exact iff_of_true rfl ⟨text, rfl⟩
  | _ => exact iff_of_false Bool.false_ne_true fun given => nomatch given

namespace Comment

theorem separatorOf_of_not_isText {value : Value} (untyped : value.isText = false) :
    separatorOf value = .notText value := by
  cases value with
  | text text => cases untyped
  | _ => rfl

/-- Errors that refuse a value. The others come from the use of a value that was not refused. -/
def SettingsError.refuses : SettingsError → Bool
  | .openersNotTexts | .openersMissing | .markerMissing | .separatorMissing => true
  | .closerNotText _ | .markerNotText _ => false

namespace Settings

variable {settings : Settings}

/-- Openers that make a pattern: a list of texts, one at least and none of them empty. -/
def HasOpeners (settings : Settings) (openers : List String) : Prop :=
  openerTexts? settings.openers = some openers ∧ openers ≠ [] ∧ "" ∉ openers

/-- What the check refuses: no good openers, no marker or no separator. -/
def Refused (settings : Settings) : Prop :=
  (∀ openers, ¬ settings.HasOpeners openers) ∨ settings.marker.isSet = false ∨
    settings.separator.isSet = false

/-- The closer is a text, or it is left out. -/
def ClosedByText (settings : Settings) : Prop :=
  settings.closer.isSet = true → settings.closer.isText = true

/-- The values of the other settings are texts. -/
structure Typed (settings : Settings) : Prop where
  marker : settings.marker.isText = true
  separator : settings.separator.isText = true
  closer : settings.ClosedByText

theorem check_of_refused (refused : settings.Refused) :
    ∃ error, settings.check = .error error ∧ error.refuses = true := by
  rw [check]
  split
  · exact ⟨_, rfl, rfl⟩
  · rename_i openers texts
    split
    · exact ⟨_, rfl, rfl⟩
    · rename_i good
      rw [Bool.or_eq_true, List.isEmpty_iff, List.contains_iff_mem, not_or] at good
      rcases refused with bad | unset | unset
      · exact absurd ⟨texts, good.1, good.2⟩ (bad openers)
      · rw [unset]
        exact ⟨_, rfl, rfl⟩
      · rw [unset]
        split <;> exact ⟨_, rfl, rfl⟩

/-- Settings that are not refused are looked at for the types of the closer and of the marker. -/
structure LooksAt (settings : Settings) (openers : List String) : Prop where
  closer : ¬ settings.ClosedByText → settings.check = .error (.closerNotText settings.closer)
  marker : settings.ClosedByText → settings.marker.isText = false →
    settings.check = .error (.markerNotText settings.marker)
  style : settings.ClosedByText → ∀ marker, settings.marker = .text marker → settings.check =
    .ok ⟨openers, marker, separatorOf settings.separator, settings.closer.text?.getD ""⟩

theorem HasOpeners.pass {openers : List String} (good : settings.HasOpeners openers) :
    (openers.isEmpty || openers.contains "") = false := by
  rw [Bool.or_eq_false_iff, List.isEmpty_eq_false_iff, ← Bool.not_eq_true, List.contains_iff_mem]
  exact good.2

theorem closer_fails_iff :
    (settings.closer.isSet && !settings.closer.isText) = true ↔ ¬ settings.ClosedByText := by
  rw [ClosedByText, Classical.not_imp, Bool.and_eq_true, Bool.not_eq_true', Bool.not_eq_true]

theorem exists_looksAt (accepted : ¬ settings.Refused) :
    ∃ openers, settings.HasOpeners openers ∧ settings.LooksAt openers := by
  rw [Refused, not_or, not_or, not_forall] at accepted
  obtain ⟨⟨openers, given⟩, marker, separator⟩ := accepted
  have good := not_not.mp given
  rw [Bool.not_eq_false] at marker separator
  refine ⟨openers, good, ?_⟩
  constructor
  · intro unclosed
    rw [check, good.1]
    simp only [good.pass, marker, separator, Bool.not_true, Bool.false_eq_true, if_false]
    rw [if_pos (closer_fails_iff.mpr unclosed)]
  · intro closed untyped
    rw [check, good.1]
    simp only [good.pass, marker, separator, Bool.not_true, Bool.false_eq_true, if_false]
    rw [if_neg (closer_fails_iff.not.mpr (not_not.mpr closed))]
    split
    · rename_i text isText
      rw [isText] at untyped
      cases untyped
    · rfl
  · intro closed text isText
    rw [check, good.1]
    simp only [good.pass, marker, separator, Bool.not_true, Bool.false_eq_true, if_false]
    rw [if_neg (closer_fails_iff.not.mpr (not_not.mpr closed)), isText]

end Settings

end Comment

/-- Failures that refuse a value, for settings or elsewhere. -/
def Failure.refuses : Failure → Bool
  | .settings error => error.refuses
  | .build .emptySeparator | .noBackingFile => true
  | _ => false

namespace Provider

/-- Settings are settled by making a provider of a document: they are refused then, or the provider
never fails to build its outline again, whatever it is asked in between. -/
def Settles (document : Document) (settings : Settings) (hasNavigator : Bool) : Prop :=
  (∃ failure, (create document settings hasNavigator : Except Failure (Provider String)) =
      .error failure ∧ failure.refuses = true) ∨
    ∃ provider : Provider String, create document settings hasNavigator = .ok provider ∧
      ∀ (reactions : String → List Request) (depth : Nat) (requests : List Request),
        ∃ listeners, ((Host.start provider).after reactions depth requests).provider.refresh.2 =
          .ok listeners

variable {settings : Settings}

theorem create_of_check_error {Listener : Type} (document : Document) (hasNavigator : Bool)
    {error : SettingsError} (failed : settings.check = .error error) :
    (create document settings hasNavigator : Except Failure (Provider Listener)) =
      .error (.settings error) := by
  rw [create, failed]

theorem settles_of_refused (document : Document) (hasNavigator : Bool)
    (refused : settings.Refused) : Settles document settings hasNavigator := by
  obtain ⟨error, failed, refuses⟩ := Settings.check_of_refused refused
  exact Or.inl ⟨_, create_of_check_error document hasNavigator failed, refuses⟩

theorem not_settles_of_error {document : Document} {hasNavigator : Bool} {failure : Failure}
    (failed : (create document settings hasNavigator : Except Failure (Provider String)) =
      .error failure) (other : failure.refuses = false) :
    ¬ Settles document settings hasNavigator := by
  intro settles
  rcases settles with ⟨failure', failed', refuses⟩ | ⟨provider, created, -⟩
  · rw [failed, Except.error.injEq] at failed'
    rw [← failed', other] at refuses
    cases refuses
  · rw [failed] at created
    cases created

theorem follows_start {document : Document} {style : Style} {separator : String}
    {provider : Provider String} (shows : provider.Shows style separator document)
    (sameDocument : provider.document = document) (silent : provider.changed = .silent) :
    (Host.start provider).Follows style separator (Ledger.start document) where
  document := sameDocument
  shows := shows
  subscriptions := rfl
  listeners := congrArg Provider.Emitter.listeners silent

theorem settles_of_style (document : Document) (hasNavigator : Bool) {style : Style}
    {separator : String} (accepted : settings.check = .ok style)
    (token : style.separator = .token separator) (nonempty : separator ≠ "") :
    Settles document settings hasNavigator := by
  obtain ⟨provider, created, shows, sameDocument, -, silent⟩ :=
    exists_create_shows document accepted token nonempty hasNavigator
  refine Or.inr ⟨provider, created, ?_⟩
  intro reactions depth requests
  have follows := (follows_start shows sameDocument silent).after nonempty reactions depth requests
  obtain ⟨builder, refreshed, -⟩ := follows.shows.exists_refresh nonempty
  rw [refreshed]
  exact ⟨_, rfl⟩

/-! ### A separator that is no text -/

theorem build_of_notText (builder : Builder) {value : Value}
    (untyped : builder.separator = .notText value) {pairs : List (String × Int)}
    (some_pair : pairs ≠ []) : (builder.build pairs).2 = some (.separatorNotText value) := by
  obtain ⟨pair, rest, rfl⟩ := List.exists_cons_of_ne_nil some_pair
  have failed : builder.reset.add pair.1 pair.2 = .error (.separatorNotText value) := by
    have same : builder.reset.separator = .notText value := untyped
    rw [Builder.add, same]
  rw [Builder.build, Builder.addAll, failed]

theorem isSome_matchLine?_written (style : Style) {opener : String}
    (member : opener ∈ style.openers) :
    (matchLine? style (opener ++ style.marker ++ "x")).isSome = true := by
  obtain ⟨place, here⟩ := List.getElem?_of_mem member
  have blank : Comment.Blank [] := fun _ inside => nomatch inside
  refine (Comment.isSome_matchLine?_iff style _).mpr ⟨⟨[], place, [], [], ['x'], [], [], []⟩, ?_⟩
  exact
    { lead := blank
      gap := blank
      space := blank
      payload := List.cons_ne_nil _ _
      oneLine := by simp
      trail := blank
      closing := Or.inl rfl
      rest := blank
      pieces := ⟨opener, here, by simp [String.toList_append]⟩ }

theorem scan_written_ne_nil (style : Style) {opener : String}
    (member : opener ∈ style.openers) :
    (Document.ofLines [opener ++ style.marker ++ "x"]).scan style ≠ [] := by
  obtain ⟨payload, found⟩ :=
    Option.isSome_iff_exists.mp (isSome_matchLine?_written style member)
  have scanned := (Document.mem_scan_iff (.ofLines [opener ++ style.marker ++ "x"]) style payload
    0).mpr ⟨Int.le_refl 0, _, rfl, found⟩
  exact List.ne_nil_of_mem scanned

theorem create_of_separator_notText {style : Style} {value : Value}
    (accepted : settings.check = .ok style) (untyped : style.separator = .notText value)
    {document : Document} (some_pair : document.scan style ≠ []) (hasNavigator : Bool) :
    (create document settings hasNavigator : Except Failure (Provider String)) =
      .error (.build (.separatorNotText value)) := by
  have same : (Builder.start style.separator).separator = .notText value := untyped
  have failed := build_of_notText (Builder.start style.separator) same some_pair
  rw [create, accepted]
  simp only [parse]
  rcases built : (Builder.start style.separator).build (document.scan style) with ⟨next, outcome⟩
  rw [built] at failed
  cases failed
  rfl

/-! ### The exact condition -/

theorem typed_of_settles (accepted : ¬ settings.Refused)
    (settles : ∀ document hasNavigator, Settles document settings hasNavigator) :
    settings.Typed := by
  obtain ⟨openers, ⟨-, some_opener, -⟩, looks⟩ := Settings.exists_looksAt accepted
  obtain ⟨opener, member⟩ := List.exists_mem_of_ne_nil _ some_opener
  have closer : settings.ClosedByText := by
    by_contra unclosed
    have failed := looks.closer unclosed
    exact not_settles_of_error (create_of_check_error (.ofLines []) false failed) rfl
      (settles _ _)
  have marker : settings.marker.isText = true := by
    by_contra untyped
    have failed := looks.marker closer (Bool.eq_false_iff.mpr untyped)
    exact not_settles_of_error (create_of_check_error (.ofLines []) false failed) rfl
      (settles _ _)
  refine ⟨marker, ?_, closer⟩
  obtain ⟨text, isText⟩ := (Value.isText_iff _).mp marker
  have styled := looks.style closer text isText
  by_contra untyped
  have token := Comment.separatorOf_of_not_isText (Bool.eq_false_iff.mpr untyped)
  exact not_settles_of_error (create_of_separator_notText styled token
    (scan_written_ne_nil _ member) false) rfl (settles _ _)

theorem settles_of_typed (document : Document) (hasNavigator : Bool)
    (accepted : ¬ settings.Refused) (typed : settings.Typed) :
    Settles document settings hasNavigator := by
  obtain ⟨openers, -, looks⟩ := Settings.exists_looksAt accepted
  obtain ⟨text, isText⟩ := (Value.isText_iff _).mp typed.marker
  obtain ⟨separator, isSeparator⟩ := (Value.isText_iff _).mp typed.separator
  have nonempty : separator ≠ "" := by
    rintro rfl
    apply accepted
    rw [Settings.Refused, isSeparator]
    exact Or.inr (Or.inr rfl)
  have token : separatorOf settings.separator = .token separator := by
    rw [isSeparator]
    rfl
  exact settles_of_style document hasNavigator (looks.style typed.closer text isText) token nonempty

/-- Whatever a table of settings holds: it is settled on every document when the provider is made,
exactly if it is refused or all its values are texts. -/
theorem settles_ofTable_iff (table : Table) :
    (∀ document hasNavigator, Settles document (Settings.ofTable table) hasNavigator) ↔
      (Settings.ofTable table).Refused ∨ (Settings.ofTable table).Typed := by
  constructor
  · intro settles
    rw [or_iff_not_imp_left]
    exact fun accepted => typed_of_settles accepted settles
  · intro given document hasNavigator
    by_cases refused : (Settings.ofTable table).Refused
    · exact settles_of_refused document hasNavigator refused
    · exact settles_of_typed document hasNavigator refused (given.resolve_left refused)

/-- A number for the marker fails at once, but not as a value that is refused. A number for the
separator fails with the first annotation, after the provider was made. -/
theorem not_settles_of_number :
    ¬ Settles (.ofText "") (Settings.ofTable [("marker", .int 5)]) false ∧
      ¬ Settles (.ofText "") (Settings.ofTable [("separator", .int 5)]) false := by
  constructor
  · have failed : (Settings.ofTable [("marker", .int 5)]).check =
        .error (.markerNotText (.int 5)) := by
      rfl
    exact not_settles_of_error (create_of_check_error _ _ failed) rfl
  · intro settles
    rcases settles with ⟨failure, failed, -⟩ | ⟨provider, created, refreshes⟩
    · cases failed
    · cases created
      obtain ⟨listeners, refreshed⟩ := refreshes (fun _ => []) 0 [.setText "// #-- a"]
      cases refreshed

end Provider

end CommentOutline
