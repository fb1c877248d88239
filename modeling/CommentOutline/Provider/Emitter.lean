set_option autoImplicit false

/-! Events without content. A listener may be subscribed several times and is then called as
often. -/

namespace CommentOutline.Provider

structure Emitter (Listener : Type) where
  listeners : List Listener
deriving Repr, DecidableEq

structure Subscription (Listener : Type) where
  listener : Listener
deriving Repr, DecidableEq

namespace Emitter

variable {Listener : Type}

def silent : Emitter Listener := ⟨[]⟩

def subscribe (emitter : Emitter Listener) (listener : Listener) :
    Emitter Listener × Subscription Listener :=
  (⟨emitter.listeners ++ [listener]⟩, ⟨listener⟩)

/-- Takes away the first listener that equals the subscription's, if there is one. -/
def unsubscribe [BEq Listener] (emitter : Emitter Listener) (subscription : Subscription Listener) :
    Emitter Listener :=
  ⟨emitter.listeners.erase subscription.listener⟩

def fire (emitter : Emitter Listener) : List Listener := emitter.listeners

def listenerCount (emitter : Emitter Listener) : Nat := emitter.listeners.length

end Emitter

end CommentOutline.Provider
