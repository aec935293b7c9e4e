import EbmsMessaging.Exchange.OpenExchange
import Mathlib.Logic.Function.Basic

/-!
# The vigil of a sender

A sender that has handed its message over hears of nothing but the acknowledgements under its
identifiers and the time that passes. What becomes of its exchange is told here from these alone, as
if nothing else were going on. The sender need not look at once for what has arrived, and looking
twice is the same as looking once.
-/
namespace EbmsMessaging

open Correlation

/-- The identifier under which the next acknowledgement is awaited. -/
def OpenExchange.awaitedKey (x : OpenExchange) : String := x.relayMessageId.getD x.messageId

theorem OpenExchange.awaitedKey_of_none {x : OpenExchange} (hx : x.relayMessageId = none) :
    x.awaitedKey = x.messageId := by
  rw [awaitedKey, hx, Option.getD_none]

/-- What a sender hears of. -/
inductive Signal where
  | arrived (a : Acknowledgement)
  | passed (ms : Nat)
deriving DecidableEq

/-- A sender waits since some instant, and this lies there for it, or its exchange is closed. -/
inductive Vigil where
  | waiting (x : OpenExchange) (since : Nat) (inbox : String → Option Acknowledgement)
  | closed (result : Except ExchangeFailure Confirmation)

namespace Vigil

/-- What lies there when one more acknowledgement has arrived. -/
def post (f : String → Option Acknowledgement) (a : Acknowledgement) :
    String → Option Acknowledgement := Function.update f a.key (some a)

/-- An acknowledgement arrives. -/
def receive : Vigil → Acknowledgement → Vigil
  | waiting x since f, a => waiting x since (post f a)
  | closed result, _ => closed result

/-- How a wait ends that began at some instant, if it ends now. -/
def outcome? (now since limit : Nat) (key : String) :
    Option Acknowledgement → Option (Outcome Acknowledgement)
  | some a => some (.value a)
  | none => if since + limit ≤ now then some (.timeout key (now - since)) else none

/-- After the submission was accepted the sender looks for the acknowledgement of the relay. -/
def relayed (now : Nat) (x : OpenExchange) (relay : String)
    (f : String → Option Acknowledgement) : Vigil :=
  match f relay with
  | some b => closed (x.afterRelay now relay (.value b))
  | none => waiting { x with relayMessageId := some relay, stage := .awaitingRelay } now f

/-- What comes of the end of a wait. -/
def ended (now : Nat) (x : OpenExchange) (f : String → Option Acknowledgement)
    (o : Outcome Acknowledgement) : Vigil :=
  match x.relayMessageId with
  | some relay => closed (x.afterRelay now relay o)
  | none =>
    match x.afterSubmission o with
    | .error e => closed (.error e)
    | .ok relay => relayed now x relay (Function.update f x.messageId none)

/-- The sender goes as far as it can without time passing. -/
def next (now : Nat) : Vigil → Vigil
  | closed result => closed result
  | waiting x since f =>
    match outcome? now since x.limit x.awaitedKey (f x.awaitedKey) with
    | none => waiting x since f
    | some o => ended now x f o

section Next

variable {now since : Nat} {x x' : OpenExchange} {f : String → Option Acknowledgement}

/-- A sender that waits and finds nothing goes on waiting. -/
theorem next_of_none (hnone : f x.awaitedKey = none) (hearly : now < since + x.limit) :
    (waiting x since f).next now = waiting x since f := by
  rw [next, hnone, outcome?, if_neg (Nat.not_le.mpr hearly)]

/-- Looking again for the acknowledgement of the relay finds nothing new. -/
theorem next_relayed (hlimit : 0 < x.limit) (relay : String) :
    (relayed now x relay f).next now = relayed now x relay f := by
  unfold relayed
  split
  · rfl
  · next hnone => exact next_of_none hnone (Nat.lt_add_of_pos_right hlimit)

theorem next_ended (hlimit : 0 < x.limit) (o : Outcome Acknowledgement) :
    (ended now x f o).next now = ended now x f o := by
  unfold ended
  cases x.relayMessageId with
  | some relay => rfl
  | none =>
    cases x.afterSubmission o with
    | error e => rfl
    | ok relay => exact next_relayed hlimit relay

theorem next_next (hlimit : 0 < x.limit) :
    ((waiting x since f).next now).next now = (waiting x since f).next now := by
  rw [next]
  split
  · next hnone => rw [next, hnone]
  · exact next_ended hlimit _

end Next

end Vigil

/-- The lists in which there is something. -/
def occupied {α : Type} (xss : List (List α)) : List (List α) := xss.filter fun xs => !xs.isEmpty

theorem occupied_map_flatMap {α β : Type} (f : α → List β) (xss : List (List α)) :
    occupied ((occupied xss).map (List.flatMap f)) = occupied (xss.map (List.flatMap f)) := by
  induction xss with
  | nil => rfl
  | cons xs xss ih =>
    cases xs with
    | nil => exact ih
    | cons x xs =>
      have hcons (yss : List (List β)) : occupied ((x :: xs).flatMap f :: yss) =
          occupied [(x :: xs).flatMap f] ++ occupied yss := List.filter_append [_] yss
      exact (hcons _).trans ((congrArg _ ih).trans (hcons _).symm)

/-- A vigil at some instant. -/
structure Watch where
  now : Nat
  vigil : Vigil

namespace Watch

def hear (w : Watch) : Signal → Watch
  | .arrived a => { w with vigil := w.vigil.receive a }
  | .passed ms => { w with now := w.now + ms }

/-- The sender looks for what has arrived, and whether its time is up. -/
def look (w : Watch) : Watch := { w with vigil := w.vigil.next w.now }

/-- The sender hears of some things before it looks. -/
def round (w : Watch) (signals : List Signal) : Watch := (signals.foldl hear w).look

/-- The sender does not wait for ever. -/
def Limited (w : Watch) : Prop :=
  match w.vigil with
  | .waiting x _ _ => 0 < x.limit
  | .closed _ => True

variable {w : Watch}

theorem Limited.hear (h : w.Limited) (signal : Signal) : (w.hear signal).Limited := by
  obtain ⟨now, vigil⟩ := w
  cases signal <;> cases vigil <;> exact h

theorem Limited.hears (h : w.Limited) (signals : List Signal) :
    (signals.foldl Watch.hear w).Limited := by
  induction signals generalizing w with
  | nil => exact h
  | cons signal signals ih => exact ih (h.hear signal)

theorem look_look (h : w.Limited) : w.look.look = w.look := by
  obtain ⟨now, vigil⟩ := w
  cases vigil with
  | closed result => rfl
  | waiting x since f => exact congrArg (Watch.mk now) (Vigil.next_next h)

theorem Limited.relayed {x : OpenExchange} (hlimit : 0 < x.limit) (now : Nat) (relay : String)
    (f : String → Option Acknowledgement) : Limited ⟨now, Vigil.relayed now x relay f⟩ := by
  unfold Vigil.relayed
  cases f relay with
  | some b => trivial
  | none => exact hlimit

theorem Limited.ended {x : OpenExchange} (hlimit : 0 < x.limit) (now : Nat)
    (f : String → Option Acknowledgement) (o : Outcome Acknowledgement) :
    Limited ⟨now, Vigil.ended now x f o⟩ := by
  unfold Vigil.ended
  cases x.relayMessageId with
  | some relay => trivial
  | none =>
    cases x.afterSubmission o with
    | error e => trivial
    | ok relay => exact Limited.relayed hlimit now relay _

theorem Limited.look (h : w.Limited) : w.look.Limited := by
  obtain ⟨now, vigil⟩ := w
  cases vigil with
  | closed result => trivial
  | waiting x since f =>
    simp only [Watch.look, Vigil.next]
    split
    · exact h
    · exact Limited.ended h now f _

theorem Limited.round (h : w.Limited) (signals : List Signal) : (w.round signals).Limited :=
  (h.hears signals).look

/-- Rounds in which nothing is heard can be left out, once the sender has looked. -/
theorem foldl_round_occupied (h : w.Limited) (hlook : w.look = w) (heard : List (List Signal)) :
    (occupied heard).foldl round w = heard.foldl round w := by
  induction heard generalizing w with
  | nil => rfl
  | cons signals heard ih =>
    cases signals with
    | nil => exact (ih h hlook).trans (congrArg (heard.foldl round) hlook.symm)
    | cons signal signals =>
      exact ih (h.round _) (look_look (h.hears (signal :: signals)))

end Watch
end EbmsMessaging
