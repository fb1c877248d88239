import CommentOutline.Proofs.Provider.Ledger

set_option autoImplicit false

/-! What lasts through a session. Requests come to a provider as edits, builds and subscriptions,
whatever listeners do in between. What these keep holds of the provider at every time. -/

namespace CommentOutline.Host

/-- What edits, builds, subscriptions and their ends keep. -/
structure Lasting (holds : Provider String → Prop) : Prop where
  setText : ∀ provider text, holds provider → holds (provider.setText text)
  parse : ∀ provider, holds provider → holds provider.parse.1
  subscribe : ∀ provider listener, holds provider → holds (provider.subscribe listener).1
  unsubscribe : ∀ provider subscription, holds provider → holds (provider.unsubscribe subscription)

variable {holds : Provider String → Prop}

theorem Lasting.refresh (lasting : Lasting holds) (provider : Provider String)
    (before : holds provider) : holds provider.refresh.1 := by
  have parsed := lasting.parse provider before
  unfold Provider.refresh
  split
  · rename_i next answer
    rw [answer] at parsed
    exact parsed
  · rename_i next failure answer
    rw [answer] at parsed
    exact parsed

theorem holds_announce {call : List String → Host → Answer Unit}
    (each : ∀ listeners host, holds host.provider → holds (call listeners host).1.provider)
    (reply : Reply) (host : Host) {answer : Provider String × Except Failure (List String)}
    (before : holds answer.1) : holds (announce call reply host answer).1.provider := by
  obtain ⟨provider, outcome⟩ := answer
  cases outcome with
  | error failure => exact before
  | ok listeners =>
      rw [announce_fst]
      exact each listeners (host.withProvider provider) before

theorem Lasting.step (lasting : Lasting holds) {call : List String → Host → Answer Unit}
    (idle : ∀ host, (call [] host).1 = host)
    (each : ∀ listeners host, holds host.provider → holds (call listeners host).1.provider)
    (host : Host) (before : holds host.provider) (request : Request) :
    holds (Host.step call host request).1.provider := by
  cases calls : request.calls with
  | false =>
      rcases host.step_quiet_cases calls idle with
        ⟨text, rfl⟩ | ⟨listener, handle, rfl⟩ | ⟨handle, rfl⟩ | ⟨same, -⟩
      · exact lasting.setText _ text before
      · exact lasting.subscribe _ listener before
      · rw [Host.step]
        split
        · exact lasting.unsubscribe _ _ before
        · exact before
      · rw [same.provider]
        exact before
  | true =>
      cases request with
      | refresh => exact holds_announce each _ host (lasting.refresh _ before)
      | fire => exact holds_announce each _ host before
      | save own =>
          cases own with
          | true => exact holds_announce each _ host (lasting.refresh _ before)
          | false => cases calls
      | _ => cases calls

section

variable {run : Host → Request → Answer Reply}

theorem holds_runAll
    (each : ∀ host request, holds host.provider → holds (run host request).1.provider)
    (requests : List Request) (host : Host) (before : holds host.provider) :
    holds (runAll run requests host).1.provider := by
  induction requests generalizing host with
  | nil => exact before
  | cons request rest ih =>
      have first := each host request before
      rw [runAll]
      split
      · rename_i next reply answer
        rw [answer] at first
        exact ih next first
      · rename_i next failure answer
        rw [answer] at first
        exact first

theorem holds_notify
    (each : ∀ host request, holds host.provider → holds (run host request).1.provider)
    (reactions : String → List Request) (listeners : List String) (host : Host)
    (before : holds host.provider) :
    holds (notify run reactions listeners host).1.provider := by
  induction listeners generalizing host with
  | nil => exact before
  | cons listener rest ih =>
      have first := holds_runAll each (reactions listener) (host.note (.fired listener)) before
      rw [notify]
      split
      · rename_i next reply answer
        rw [answer] at first
        exact ih next first
      · rename_i next failure answer
        rw [answer] at first
        exact first

end

theorem Lasting.run (lasting : Lasting holds) (reactions : String → List Request) (depth : Nat) :
    ∀ (host : Host) (request : Request), holds host.provider →
      holds (Host.run reactions depth host request).1.provider := by
  induction depth with
  | zero =>
      intro host request before
      exact lasting.step (fun _ => rfl) (fun _ _ given => given) host before request
  | succ depth ih =>
      intro host request before
      exact lasting.step (fun _ => rfl)
        (fun listeners other given => holds_notify ih reactions listeners other given) host before
        request

theorem Lasting.after (lasting : Lasting holds) (reactions : String → List Request) (depth : Nat)
    (requests : List Request) (host : Host) (before : holds host.provider) :
    holds (host.after reactions depth requests).provider := by
  induction requests generalizing host with
  | nil => exact before
  | cons request rest ih =>
      rw [Host.after]
      exact ih _ (lasting.run reactions depth { host with events := [] } request before)

end CommentOutline.Host
