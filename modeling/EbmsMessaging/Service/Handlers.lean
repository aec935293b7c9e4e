import EbmsMessaging.Message

/-!
# Message handlers

Handlers are called with every business message that arrives, in the order of their registration. A
handler that is registered twice is called twice. A handler may register or deregister handlers
while a message is delivered; this delivery goes to the handlers that were registered when it began.
-/
namespace EbmsMessaging

/-- The ways in which a handler can fail. -/
inductive HandlerFailure where
  | error
  | crash
deriving DecidableEq, Repr

/-- The label under which a failure is counted. -/
def HandlerFailure.label : HandlerFailure → String
  | error => "error"
  | crash => "panic"

/-- One call of a handler. -/
structure HandlerCall where
  name : String
  message : BusinessMessage
deriving DecidableEq, Repr

/-! ## Registration -/

/-- A change of what is registered. -/
inductive RegistryChange where
  | register (name : String)
  | deregister (name : String)
deriving DecidableEq, Repr

/-- The handler that a change is about. -/
def RegistryChange.name : RegistryChange → String
  | register name => name
  | deregister name => name

/-- The registered handlers, in the order of their registration. -/
abbrev Registry := List String

namespace Registry

/-- Adds a handler behind the others. -/
def register (r : Registry) (name : String) : Registry := r ++ [name]

/-- Takes the first registration of a handler back, and tells whether there was one. -/
def deregister (r : Registry) (name : String) : Bool × Registry :=
  match r.idxOf? name with
  | some i => (true, r.eraseIdx i)
  | none => (false, r)

def change (r : Registry) : RegistryChange → Registry
  | .register name => r.register name
  | .deregister name => (r.deregister name).2

end Registry

/-! ## Delivery -/

/-- What a handler does when it is called: it changes what is registered, in this order, and fails
in the end or does not. -/
structure HandlerDeed where
  changes : List RegistryChange
  failure : Option HandlerFailure
deriving DecidableEq, Repr

/-- How handlers act on a message. What they do depends on what is registered when they are called,
and on a state of their own. -/
abbrev HandlerActs (ω : Type) := String → BusinessMessage → Registry → ω → HandlerDeed × ω

/-- What a delivery did. -/
structure Delivery (ω : Type) where
  /-- How many handlers it was for. -/
  handlers : Nat
  calls : List HandlerCall
  failures : List HandlerFailure
  registry : Registry
  state : ω

namespace Registry

variable {ω : Type}

/-- Calls handlers one after the other, whatever becomes of the ones before. -/
def callAll (acts : HandlerActs ω) (m : BusinessMessage) :
    List String → Registry → ω → List HandlerCall × List HandlerFailure × Registry × ω
  | [], r, w => ([], [], r, w)
  | name :: names, r, w =>
    let (deed, w) := acts name m r w
    let (calls, failures, r, w) := callAll acts m names (deed.changes.foldl change r) w
    (⟨name, m⟩ :: calls, deed.failure.toList ++ failures, r, w)

/-- A message goes to the handlers that are registered when its delivery begins. -/
def deliver (r : Registry) (acts : HandlerActs ω) (m : BusinessMessage) (w : ω) : Delivery ω :=
  let (calls, failures, registry, state) := callAll acts m r r w
  ⟨r.length, calls, failures, registry, state⟩

end Registry

/-! ## Handlers that are introduced by name -/

/-- What a handler does whenever it is called. -/
inductive HandlerBehaviour where
  | succeed
  | fail
  | crash
  | register (name : String)
  | deregister (name : String)
deriving DecidableEq, Repr

def HandlerBehaviour.deed : HandlerBehaviour → HandlerDeed
  | succeed => ⟨[], none⟩
  | fail => ⟨[], some .error⟩
  | crash => ⟨[], some .crash⟩
  | register name => ⟨[.register name], none⟩
  | deregister name => ⟨[.deregister name], none⟩

/-- The handlers that were ever named, with what they do. -/
abbrev KnownHandlers := List (String × HandlerBehaviour)

namespace KnownHandlers

/-- The first use of a name fixes what its handler does. -/
def introduce (k : KnownHandlers) (name : String) (behaviour : HandlerBehaviour) : KnownHandlers :=
  if (k.lookup name).isSome then k else k ++ [(name, behaviour)]

/-- Handlers do what they were introduced with. Those that they name for the first time do nothing
but succeed. -/
def acts : HandlerActs KnownHandlers := fun name _ _ k =>
  let deed := ((k.lookup name).getD .succeed).deed
  (deed, deed.changes.foldl (fun k c => k.introduce c.name .succeed) k)

end KnownHandlers

structure Handlers where
  known : KnownHandlers
  registered : Registry
deriving DecidableEq, Repr

namespace Handlers

def empty : Handlers := ⟨[], []⟩

/-- The first use of a name fixes what its handler does. -/
def introduce (h : Handlers) (name : String) (behaviour : HandlerBehaviour) : Handlers :=
  { h with known := h.known.introduce name behaviour }

/-- Adds a handler behind the others. -/
def register (h : Handlers) (name : String) : Handlers :=
  { h with registered := h.registered.register name }

/-- Takes the first registration of a handler back, and tells whether there was one. -/
def deregister (h : Handlers) (name : String) : Bool × Handlers :=
  let (removed, registered) := h.registered.deregister name
  (removed, { h with registered := registered })

/-- A message goes to all registered handlers. -/
def deliver (h : Handlers) (m : BusinessMessage) : Delivery KnownHandlers :=
  h.registered.deliver KnownHandlers.acts m h.known

end Handlers
end EbmsMessaging
