import CommentOutline.Proofs.Comment.Reading
import CommentOutline.Proofs.Provider.Showing
import CommentOutline.Provider.Host

set_option autoImplicit false

/-! A host and its history. A ledger takes down the few requests that matter: the text that was set
last, the document at the last build and the listeners that are registered. Readers see the outline
of the document that the ledger has as built, whatever was built before and whatever listeners do
when they are called, and every build calls the listeners that the ledger has. -/

namespace CommentOutline

open Comment (Settings Style check_ofTexts_eq_ok_iff)
open Host (Answer Event Reply Request)
open Outline

structure Ledger where
  document : Document
  /-- The document as it was when it was built last. -/
  built : Document
  /-- The listeners behind the handles, the latest first. -/
  handles : List (String × String)
  /-- The registered listeners, in the order of their subscriptions. -/
  listeners : List String
deriving Repr, DecidableEq

namespace Ledger

def start (document : Document) : Ledger := ⟨document, document, [], []⟩

def enter (ledger : Ledger) : Request → Ledger
  | .setText text => { ledger with document := ledger.document.setText text }
  | .refresh | .save true => { ledger with built := ledger.document }
  | .subscribe listener handle =>
      { ledger with
        handles := (handle, listener) :: ledger.handles
        listeners := ledger.listeners ++ [listener] }
  | .unsubscribe handle =>
      match ledger.handles.lookup handle with
      | some listener => { ledger with listeners := ledger.listeners.erase listener }
      | none => ledger
  | _ => ledger

def enterAll (ledger : Ledger) (requests : List Request) : Ledger := requests.foldl enter ledger

theorem enterAll_append (ledger : Ledger) (first second : List Request) :
    ledger.enterAll (first ++ second) = (ledger.enterAll first).enterAll second :=
  List.foldl_append

end Ledger

namespace Host

def Request.builds : Request → Bool
  | .refresh | .save true => true
  | _ => false

def Request.calls : Request → Bool
  | .refresh | .save true | .fire => true
  | _ => false

def called (events : List Event) : List String :=
  events.filterMap fun event =>
    match event with
    | .fired listener => some listener
    | .revealed _ => none

/-! ### Requests in the order in which they are carried out -/

/-- The host as the listeners find it when they are called. -/
def opened (host : Host) (request : Request) : Host :=
  if request.builds then host.withProvider host.provider.refresh.1 else host

section

variable (run : Host → Request → Answer Reply) (carried : Host → Request → List Request)

def carriedAll : List Request → Host → List Request
  | [], _ => []
  | request :: rest, host =>
      carried host request ++
        match run host request with
        | (next, .ok _) => carriedAll rest next
        | (_, .error _) => []

def carriedRound (reactions : String → List Request) : List String → Host → List Request
  | [], _ => []
  | listener :: rest, host =>
      carriedAll run carried (reactions listener) (host.note (.fired listener)) ++
        match runAll run (reactions listener) (host.note (.fired listener)) with
        | (next, .ok _) => carriedRound reactions rest next
        | (_, .error _) => []

end

/-- What one request makes a host carry out: the request, and then the requests of the listeners
that are called. -/
def carried (reactions : String → List Request) : (depth : Nat) → Host → Request → List Request
  | 0, _, request => [request]
  | depth + 1, host, request =>
      request ::
        if request.calls then
          carriedRound (run reactions depth) (carried reactions depth) reactions
            host.provider.changed.listeners (host.opened request)
        else []

def after (reactions : String → List Request) (depth : Nat) : Host → List Request → Host
  | host, [] => host
  | host, request :: rest =>
      after reactions depth (run reactions depth { host with events := [] } request).1 rest

def history (reactions : String → List Request) (depth : Nat) : Host → List Request → List Request
  | _, [] => []
  | host, request :: rest =>
      carried reactions depth { host with events := [] } request ++
        history reactions depth (run reactions depth { host with events := [] } request).1 rest

theorem session_append (reactions : String → List Request) (depth : Nat) (host : Host)
    (first second : List Request) :
    session reactions depth host (first ++ second) =
      session reactions depth host first ++
        session reactions depth (host.after reactions depth first) second := by
  induction first generalizing host with
  | nil => rfl
  | cons request first ih =>
      rw [List.cons_append, session, session, after, List.cons_append, ih]

/-! ### Hosts that follow a ledger -/

structure Follows (host : Host) (style : Style) (separator : String) (ledger : Ledger) : Prop where
  document : host.provider.document = ledger.document
  shows : host.provider.Shows style separator ledger.built
  subscriptions : host.subscriptions = ledger.handles.map fun entry => (entry.1, ⟨entry.2⟩)
  listeners : host.provider.changed.listeners = ledger.listeners

variable {host next : Host} {style : Style} {separator : String} {ledger : Ledger}

theorem Follows.of_same (follows : host.Follows style separator ledger)
    (provider : next.provider = host.provider)
    (subscriptions : next.subscriptions = host.subscriptions) :
    next.Follows style separator ledger where
  document := by rw [provider, follows.document]
  shows := by
    rw [provider]
    exact follows.shows
  subscriptions := by rw [subscriptions, follows.subscriptions]
  listeners := by rw [provider, follows.listeners]

theorem lookup_handles (handles : List (String × String)) (handle : String) :
    (handles.map fun entry => (entry.1, (⟨entry.2⟩ : Provider.Subscription String))).lookup handle =
      (handles.lookup handle).map fun listener => ⟨listener⟩ := by
  induction handles with
  | nil => rfl
  | cons entry handles ih =>
      rw [List.map_cons, List.lookup_cons, List.lookup_cons, ih]
      cases handle == entry.1 <;> rfl

theorem Follows.setText (follows : host.Follows style separator ledger) (text : String) :
    (host.withProvider (host.provider.setText text)).Follows style separator
      (ledger.enter (.setText text)) where
  document := congrArg (Document.setText · text) follows.document
  shows := follows.shows.of_same rfl rfl rfl
  subscriptions := follows.subscriptions
  listeners := follows.listeners

theorem Follows.subscribe (follows : host.Follows style separator ledger)
    (call : List String → Host → Answer Unit) (listener handle : String) :
    (step call host (.subscribe listener handle)).1.Follows style separator
      (ledger.enter (.subscribe listener handle)) where
  document := follows.document
  shows := follows.shows.of_same rfl rfl rfl
  subscriptions :=
    congrArg (List.cons (handle, (⟨listener⟩ : Provider.Subscription String))) follows.subscriptions
  listeners := congrArg (· ++ [listener]) follows.listeners

theorem Follows.unsubscribe (follows : host.Follows style separator ledger)
    (call : List String → Host → Answer Unit) (handle : String) :
    (step call host (.unsubscribe handle)).1.Follows style separator
      (ledger.enter (.unsubscribe handle)) := by
  rw [step, follows.subscriptions, lookup_handles, Ledger.enter]
  cases ledger.handles.lookup handle with
  | none => exact follows
  | some listener =>
      exact
        { document := follows.document
          shows := follows.shows.of_same rfl rfl rfl
          subscriptions := follows.subscriptions
          listeners := congrArg (List.erase · listener) follows.listeners }

/-! ### One request -/

/-- Nothing has changed but what is held and where the caret was sent. -/
structure Same (host next : Host) : Prop where
  provider : next.provider = host.provider
  subscriptions : next.subscriptions = host.subscriptions
  called : called next.events = called host.events

theorem Same.rfl : host.Same host :=
  ⟨Eq.refl _, Eq.refl _, Eq.refl _⟩

theorem same_reveal (host : Host) (answer : Except Failure (Option Caret)) :
    host.Same (host.reveal answer).1 := by
  match answer with
  | .ok (some caret) =>
      refine ⟨rfl, rfl, ?_⟩
      rw [reveal, note, called, List.filterMap_append]
      exact List.append_nil _
  | .ok none => exact .rfl
  | .error failure => exact .rfl

theorem same_found {α : Type} (host : Host) (reply : α → Reply) (result : Option α) :
    host.Same (host.found reply result).1 := by
  cases result <;> exact .rfl

theorem announce_fst (call : List String → Host → Answer Unit) (reply : Reply) (host : Host)
    (provider : Provider String) (listeners : List String) :
    (announce call reply host (provider, .ok listeners)).1 =
      (call listeners (host.withProvider provider)).1 := by
  rw [announce]
  rcases call listeners (host.withProvider provider) with ⟨next, outcome⟩
  cases outcome <;> rfl

theorem step_save_other (call : List String → Host → Answer Unit) (host : Host) :
    step call host (.save false) = announce call (.flag false) host (host.provider, .ok []) :=
  rfl

theorem step_eq_of_quiet (host : Host) {request : Request} (quiet : request.calls = false)
    {call call' : List String → Host → Answer Unit} (idle : ∀ host, call [] host = call' [] host) :
    step call host request = step call' host request := by
  cases request with
  | refresh | fire => cases quiet
  | save own =>
      cases own with
      | true => cases quiet
      | false => rw [step_save_other, step_save_other, announce, announce, idle]
  | setText | jump | execute | activate | clearCopy | roots | children | item | subscribe
  | unsubscribe | listenerCount | hold | held | forest => rfl

theorem step_quiet_cases (host : Host) {request : Request} (quiet : request.calls = false)
    {call : List String → Host → Answer Unit} (idle : ∀ host, (call [] host).1 = host) :
    (∃ text, request = .setText text) ∨ (∃ listener handle, request = .subscribe listener handle) ∨
      (∃ handle, request = .unsubscribe handle) ∨
      host.Same (step call host request).1 ∧ ∀ ledger : Ledger, ledger.enter request = ledger := by
  cases request with
  | refresh | fire => cases quiet
  | setText text => exact .inl ⟨text, rfl⟩
  | subscribe listener handle => exact .inr (.inl ⟨listener, handle, rfl⟩)
  | unsubscribe handle => exact .inr (.inr (.inl ⟨handle, rfl⟩))
  | save own =>
      cases own with
      | true => cases quiet
      | false =>
          refine .inr (.inr (.inr ⟨?_, fun _ => rfl⟩))
          rw [step_save_other, announce_fst, idle]
          exact ⟨rfl, rfl, rfl⟩
  | jump line => exact .inr (.inr (.inr ⟨host.same_reveal _, fun _ => rfl⟩))
  | execute name arguments => exact .inr (.inr (.inr ⟨host.same_reveal _, fun _ => rfl⟩))
  | activate path =>
      refine .inr (.inr (.inr ⟨?_, fun _ => rfl⟩))
      rw [step]
      cases host.nodeAt? path with
      | some node => exact host.same_reveal _
      | none => exact .rfl
  | clearCopy | children | item | held =>
      exact .inr (.inr (.inr ⟨host.same_found _ _, fun _ => rfl⟩))
  | roots | listenerCount | hold | forest =>
      exact .inr (.inr (.inr ⟨⟨rfl, rfl, rfl⟩, fun _ => rfl⟩))

theorem roots_step_of_quiet (host : Host) {request : Request} (quiet : request.calls = false)
    {call : List String → Host → Answer Unit} (idle : ∀ host, (call [] host).1 = host) :
    (step call host request).1.provider.roots = host.provider.roots ∧
      called (step call host request).1.events = called host.events := by
  rcases host.step_quiet_cases quiet idle with
    ⟨text, rfl⟩ | ⟨listener, handle, rfl⟩ | ⟨handle, rfl⟩ | ⟨same, -⟩
  · exact ⟨rfl, rfl⟩
  · exact ⟨rfl, rfl⟩
  · rw [step]
    cases host.subscriptions.lookup handle <;> exact ⟨rfl, rfl⟩
  · exact ⟨congrArg Provider.roots same.provider, same.called⟩

theorem Follows.step_of_quiet (follows : host.Follows style separator ledger) {request : Request}
    (quiet : request.calls = false) {call : List String → Host → Answer Unit}
    (idle : ∀ host, (call [] host).1 = host) :
    (step call host request).1.Follows style separator (ledger.enter request) := by
  rcases host.step_quiet_cases quiet idle with
    ⟨text, rfl⟩ | ⟨listener, handle, rfl⟩ | ⟨handle, rfl⟩ | ⟨same, entered⟩
  · exact follows.setText text
  · exact follows.subscribe call listener handle
  · exact follows.unsubscribe call handle
  · rw [entered]
    exact follows.of_same same.provider same.subscriptions

theorem Follows.step_of_builds (follows : host.Follows style separator ledger)
    (nonempty : separator ≠ "") {request : Request} (builds : request.builds = true) :
    ∃ reply, host.opened request = host.withProvider host.provider.refresh.1 ∧
      (host.opened request).Follows style separator (ledger.enter request) ∧
      ∀ call, step call host request =
        announce call reply host (host.provider.refresh.1, .ok ledger.listeners) := by
  obtain ⟨builder, refreshed, shows⟩ := follows.shows.exists_refresh nonempty
  have opens : host.opened request = host.withProvider host.provider.refresh.1 := if_pos builds
  have answer : host.provider.refresh = (host.provider.refresh.1, .ok ledger.listeners) := by
    rw [refreshed, follows.listeners]
  have entered : ledger.enter request = { ledger with built := ledger.document } := by
    cases request with
    | refresh => rfl
    | save own =>
        cases own with
        | true => rfl
        | false => cases builds
    | _ => cases builds
  have reflects : (host.opened request).Follows style separator (ledger.enter request) := by
    rw [opens, entered, refreshed]
    exact
      { document := follows.document
        shows := follows.document ▸ shows.of_same rfl rfl rfl
        subscriptions := follows.subscriptions
        listeners := follows.listeners }
  cases request with
  | refresh => exact ⟨.nothing, opens, reflects, fun call => by rw [step, answer]⟩
  | save own =>
      cases own with
      | true =>
          refine ⟨.flag true, opens, reflects, fun call => ?_⟩
          rw [step, Provider.saved, if_pos rfl, answer]
      | false => cases builds
  | _ => cases builds

/-- The listeners are called on a host that follows the ledger already. -/
theorem Follows.step_of_calls (follows : host.Follows style separator ledger)
    (nonempty : separator ≠ "") {request : Request} (calls : request.calls = true)
    (call : List String → Host → Answer Unit) :
    (host.opened request).Follows style separator (ledger.enter request) ∧
      (step call host request).1 = (call ledger.listeners (host.opened request)).1 := by
  cases builds : request.builds with
  | true =>
      obtain ⟨reply, opens, opened, answer⟩ := follows.step_of_builds nonempty builds
      refine ⟨opened, ?_⟩
      rw [answer call, announce_fst, opens]
  | false =>
      cases request with
      | fire =>
          refine ⟨follows, ?_⟩
          rw [← follows.listeners]
          exact announce_fst call .nothing host host.provider host.provider.changed.listeners
      | refresh => cases builds
      | save own =>
          cases own with
          | true => cases builds
          | false => cases calls
      | _ => cases calls

theorem Follows.step (follows : host.Follows style separator ledger) (nonempty : separator ≠ "")
    {call : List String → Host → Answer Unit} {more : List String → Host → List Request}
    (idle : ∀ host, (call [] host).1 = host)
    (round : ∀ host ledger listeners, Follows host style separator ledger →
      (call listeners host).1.Follows style separator (ledger.enterAll (more listeners host)))
    (request : Request) :
    (Host.step call host request).1.Follows style separator
      (ledger.enterAll (request ::
        if request.calls then more host.provider.changed.listeners (host.opened request)
        else [])) := by
  cases calls : request.calls with
  | true =>
      obtain ⟨opened, same⟩ := follows.step_of_calls nonempty calls call
      rw [same, if_pos rfl, follows.listeners]
      exact round _ _ ledger.listeners opened
  | false =>
      rw [if_neg Bool.false_ne_true]
      exact follows.step_of_quiet calls idle

/-! ### Whatever listeners do -/

section

variable {run : Host → Request → Answer Reply} {carried : Host → Request → List Request}

theorem Follows.runAll
    (each : ∀ host ledger request, Follows host style separator ledger →
      (run host request).1.Follows style separator (ledger.enterAll (carried host request)))
    (requests : List Request) (follows : host.Follows style separator ledger) :
    (Host.runAll run requests host).1.Follows style separator
      (ledger.enterAll (carriedAll run carried requests host)) := by
  induction requests generalizing host ledger with
  | nil => exact follows
  | cons request rest ih =>
      have first := each host ledger request follows
      rw [Host.runAll, carriedAll, Ledger.enterAll_append]
      rcases answer : run host request with ⟨next, outcome⟩
      rw [answer] at first
      cases outcome with
      | ok reply => exact ih first
      | error failure => exact first

theorem Follows.notify
    (each : ∀ host ledger request, Follows host style separator ledger →
      (run host request).1.Follows style separator (ledger.enterAll (carried host request)))
    (reactions : String → List Request) (listeners : List String)
    (follows : host.Follows style separator ledger) :
    (Host.notify run reactions listeners host).1.Follows style separator
      (ledger.enterAll (carriedRound run carried reactions listeners host)) := by
  induction listeners generalizing host ledger with
  | nil => exact follows
  | cons listener rest ih =>
      have noted : (host.note (.fired listener)).Follows style separator ledger :=
        follows.of_same rfl rfl
      have first := noted.runAll each (reactions listener)
      rw [Host.notify, carriedRound, Ledger.enterAll_append]
      rcases answer : Host.runAll run (reactions listener) (host.note (.fired listener)) with
        ⟨next, outcome⟩
      rw [answer] at first
      cases outcome with
      | ok reply => exact ih first
      | error failure => exact first

end

theorem Follows.run (nonempty : separator ≠ "") (reactions : String → List Request)
    (depth : Nat) : ∀ (host : Host) (ledger : Ledger) (request : Request),
      host.Follows style separator ledger →
      (Host.run reactions depth host request).1.Follows style separator
        (ledger.enterAll (carried reactions depth host request)) := by
  induction depth with
  | zero =>
      intro host ledger request follows
      -- no listener is called at this depth, and so none makes requests
      let nobody : List String → Host → List Request := fun _ _ => []
      have alone : (Host.run reactions 0 host request).1.Follows style separator
          (ledger.enterAll (request ::
            if request.calls then nobody host.provider.changed.listeners (host.opened request)
            else [])) :=
        follows.step nonempty (fun _ => rfl) (fun _ _ _ given => given) request
      rw [ite_self] at alone
      exact alone
  | succ depth ih =>
      intro host ledger request follows
      exact follows.step nonempty (fun _ => rfl)
        (fun _ _ listeners given => given.notify ih reactions listeners) request

theorem Follows.after (nonempty : separator ≠ "") (reactions : String → List Request)
    (depth : Nat) (requests : List Request) (follows : host.Follows style separator ledger) :
    (host.after reactions depth requests).Follows style separator
      (ledger.enterAll (host.history reactions depth requests)) := by
  induction requests generalizing host ledger with
  | nil => exact follows
  | cons request rest ih =>
      have cleared : { host with events := [] : Host }.Follows style separator ledger :=
        follows.of_same rfl rfl
      rw [Host.after, history, Ledger.enterAll_append]
      exact ih (Follows.run nonempty reactions depth _ ledger request cleared)

/-! ### Listeners that make no requests -/

theorem notify_silent (run : Host → Request → Answer Reply) (listeners : List String)
    (host : Host) :
    notify run (fun _ => []) listeners host =
      ({ host with events := host.events ++ listeners.map .fired }, .ok ()) := by
  induction listeners generalizing host with
  | nil =>
      rw [notify, List.map_nil, List.append_nil]
  | cons listener rest ih =>
      rw [notify, runAll]
      refine (ih _).trans ?_
      rw [note, List.map_cons, ← List.append_cons]

theorem called_append (first second : List Event) :
    called (first ++ second) = called first ++ called second :=
  List.filterMap_append

theorem called_map_fired (listeners : List String) :
    called (listeners.map .fired) = listeners := by
  induction listeners with
  | nil => rfl
  | cons listener rest ih => exact congrArg (listener :: ·) ih

theorem carriedRound_silent (run : Host → Request → Answer Reply)
    (carried : Host → Request → List Request) (listeners : List String) (host : Host) :
    carriedRound run carried (fun _ => []) listeners host = [] := by
  induction listeners generalizing host with
  | nil => rfl
  | cons listener rest ih => exact ih _

theorem carried_silent (depth : Nat) (host : Host) (request : Request) :
    carried (fun _ => []) depth host request = [request] := by
  cases depth with
  | zero => rfl
  | succ depth => rw [carried, carriedRound_silent, ite_self]

theorem history_silent (depth : Nat) (host : Host) (requests : List Request) :
    host.history (fun _ => []) depth requests = requests := by
  induction requests generalizing host with
  | nil => rfl
  | cons request rest ih => rw [history, carried_silent, ih, List.singleton_append]

/-! ### What the ledger tells -/

def Idle (call : List String → Host → Answer Unit) : Prop := ∀ host, call [] host = (host, .ok ())

/-- What readers see and which listeners are called, told from a ledger. -/
structure Reflects (host : Host) (style : Style) (separator : String) (ledger : Ledger) : Prop where
  /-- Readers see the outline of the document at the last build. -/
  readers : buildForest (.token separator) (ledger.built.scan style) = .ok host.provider.roots
  /-- A build shows the outline of the document as it is, and then the registered listeners are
  called, whatever these do. -/
  build : ∀ request : Request, request.builds = true → ∃ (next : Provider String) (reply : Reply),
    buildForest (.token separator) (ledger.document.scan style) = .ok next.roots ∧
    ∀ call, Host.step call host request = announce call reply host (next, .ok ledger.listeners)
  /-- Other requests change nothing for readers, and they are carried out in the same way whatever
  listeners would do. -/
  quiet : ∀ request : Request, request.calls = false → ∀ call, Idle call →
    (Host.step call host request).1.provider.roots = host.provider.roots ∧
    ∀ call', Idle call' → Host.step call' host request = Host.step call host request
  /-- If listeners make no requests, these are the calls. -/
  calls : ∀ (depth : Nat) (request : Request),
    called (Host.run (fun _ => []) (depth + 1) host request).1.events =
      called host.events ++ if request.calls then ledger.listeners else []

theorem called_events_run_silent (follows : host.Follows style separator ledger)
    (nonempty : separator ≠ "") (depth : Nat) (request : Request) :
    called (Host.run (fun _ => []) (depth + 1) host request).1.events =
      called host.events ++ if request.calls then ledger.listeners else [] := by
  rw [Host.run]
  cases calls : request.calls with
  | true =>
      obtain ⟨-, same⟩ := follows.step_of_calls nonempty calls
        (notify (Host.run (fun _ => []) depth) fun _ => [])
      have kept : (host.opened request).events = host.events := by
        rw [opened]
        split <;> rfl
      rw [same, notify_silent, called_append, called_map_fired, kept, if_pos rfl]
  | false =>
      rw [(host.roots_step_of_quiet calls fun _ => rfl).2, if_neg Bool.false_ne_true,
        List.append_nil]

theorem Follows.reflects (follows : host.Follows style separator ledger)
    (nonempty : separator ≠ "") : host.Reflects style separator ledger where
  readers := follows.shows.buildForest_eq nonempty
  build := by
    intro request builds
    obtain ⟨builder, refreshed, shows⟩ := follows.shows.exists_refresh nonempty
    obtain ⟨reply, -, -, answer⟩ := follows.step_of_builds nonempty builds
    refine ⟨host.provider.refresh.1, reply, ?_, answer⟩
    rw [refreshed, ← follows.document]
    exact shows.buildForest_eq nonempty
  quiet := by
    intro request quiet call idle
    have still : ∀ host, (call [] host).1 = host := fun host => by rw [idle]
    refine ⟨(host.roots_step_of_quiet quiet still).1, fun call' idle' => ?_⟩
    exact host.step_eq_of_quiet quiet fun other => (idle' other).trans (idle other).symm
  calls := called_events_run_silent follows nonempty

/-- Whatever a host is asked to do, and whatever listeners do when they are called: readers see the
outline of the document as it was at the last build, with nothing of what was built before, edits
show with the next build, and builds call the registered listeners. -/
theorem after_reflects_history (document : Document) (openers : List String)
    (marker separator closer : String) (hasNavigator : Bool) (style : Style)
    (accepted : (Settings.ofTexts openers marker separator closer).check = .ok style) :
    ∃ provider : Provider String,
      Provider.create document (.ofTexts openers marker separator closer) hasNavigator =
        .ok provider ∧
      ∀ (reactions : String → List Request) (depth : Nat) (requests : List Request),
        ((start provider).after reactions depth requests).Reflects style separator
          ((Ledger.start document).enterAll ((start provider).history reactions depth requests)) ∧
        ∀ more, session reactions depth (start provider) (requests ++ more) =
          session reactions depth (start provider) requests ++
            session reactions depth ((start provider).after reactions depth requests) more := by
  obtain ⟨⟨-, -, -, nonempty⟩, rfl⟩ :=
    (check_ofTexts_eq_ok_iff openers marker separator closer style).mp accepted
  obtain ⟨provider, created, shows, sameDocument, -, silent⟩ :=
    Provider.exists_create_shows document accepted rfl nonempty hasNavigator
  refine ⟨provider, created, fun reactions depth requests => ⟨?_, ?_⟩⟩
  · have follows : (start provider).Follows ⟨openers, marker, .token separator, closer⟩ separator
        (Ledger.start document) :=
      { document := sameDocument
        shows := shows
        subscriptions := rfl
        listeners := congrArg Provider.Emitter.listeners silent }
    exact (follows.after nonempty reactions depth requests).reflects nonempty
  · exact session_append reactions depth (start provider) requests

/-- The second edit does not show, since the save was one of another document. -/
theorem after_reflects_history_edits :
    (Settings.ofTexts ["//", "/*"] "#--" "::" "*/").check = .ok .standard ∧
    ∃ provider : Provider String,
      Provider.create (.ofText "// #-- y") (.ofTexts ["//", "/*"] "#--" "::" "*/") false =
        .ok provider ∧
      ((start provider).after (fun _ => []) 1
          [.subscribe "a" "h", .setText "// #-- P::x", .refresh, .setText "// #-- z",
            .save false]).Reflects .standard "::"
        ⟨.ofText "// #-- z", .ofText "// #-- P::x", [("h", "a")], ["a"]⟩ := by
  have accepted : (Settings.ofTexts ["//", "/*"] "#--" "::" "*/").check = .ok .standard := by rfl
  obtain ⟨provider, created, reflects⟩ :=
    after_reflects_history (.ofText "// #-- y") _ _ _ _ false _ accepted
  obtain ⟨shown, -⟩ := reflects (fun _ => []) 1
    [.subscribe "a" "h", .setText "// #-- P::x", .refresh, .setText "// #-- z", .save false]
  rw [history_silent] at shown
  exact ⟨accepted, provider, created, shown⟩

end Host

end CommentOutline
