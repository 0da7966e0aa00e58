import PolledUart.Proofs.BringUp
import PolledUart.Proofs.History

/-!
# Attempts to send

What a session hands to the transmitter, and what becomes of it. A call names some
texts (`Call.texts`); they are attempted one after the other up to the first failure
(`Sending`), and an attempt puts all of its text on the wire, or the first words of
it, or nothing (`Attempt.wire`). What a call answers tells how the sending ended
(`Reply.Reports`).

* `Sending.wire_of_ok` — when all texts are sent, the wire carries their expansion.
* `Entry.Explained` — what an entry of a history has to do with the attempts made
  in it.
-/

namespace PolledUart

open Newline

/-- How an attempt to send a text went. -/
inductive Attempt where
  /-- All of it was sent. -/
  | sent (text : List UInt8)
  /-- It was announced, and given up when the FIFO had taken some words. -/
  | cut (text : List UInt8) (words : Nat)
  /-- The transmitter did not become idle, and nothing was announced. -/
  | blocked (text : List UInt8)
  deriving DecidableEq, Repr

namespace Attempt

/-- The characters of an attempt that reached the wire. -/
def wire : Attempt → List UInt8
  | .sent text => expand text
  | .cut text words => (expand text).take (4 * words)
  | .blocked _ => []

/-- The number of characters that an attempt announced, if it got so far. -/
def announced : Attempt → List Nat
  | .sent text => [physicalLength text]
  | .cut text _ => [physicalLength text]
  | .blocked _ => []

end Attempt

/-- A text that can be announced: it is not empty, and its physical length fits in 32 bits. -/
def Sendable (text : List UInt8) : Prop := text ≠ [] ∧ physicalLength text < 0x100000000

/-- How sending some texts one after the other, up to the first failure, can go: how it ends, and
what was attempted. -/
inductive Sending : List (List UInt8) → Except IoError Unit → List Attempt → Prop where
  /-- No text is left. -/
  | done : Sending [] (.ok ()) []
  /-- A text is sent, and the next one has its turn. -/
  | sent {text : List UInt8} {rest : List (List UInt8)} {r : Except IoError Unit}
      {attempts : List Attempt} : Sendable text → Sending rest r attempts →
      Sending (text :: rest) r (.sent text :: attempts)
  /-- A text times out after some of its words, but not all of them. -/
  | cut {text : List UInt8} {rest : List (List UInt8)} {words : Nat} : Sendable text →
      4 * words < physicalLength text → Sending (text :: rest) (.error .timeout) [.cut text words]
  /-- A text times out before it is announced. -/
  | blocked {text : List UInt8} {rest : List (List UInt8)} : Sendable text →
      Sending (text :: rest) (.error .timeout) [.blocked text]
  /-- A text is refused, and not attempted. -/
  | refused {text : List UInt8} {rest : List (List UInt8)} : ¬ Sendable text →
      Sending (text :: rest) (.error .invalidArgument) []

namespace Sending

variable {texts rest : List (List UInt8)} {r : Except IoError Unit}
  {attempts : List Attempt}

/-- After a failure the texts that are left do not matter. -/
theorem append_of_error (h : Sending texts r attempts) (hr : r ≠ .ok ()) :
    Sending (texts ++ rest) r attempts := by
  induction h with
  | done => exact absurd rfl hr
  | sent hs _ ih => exact .sent hs (ih hr)
  | cut hs hw => exact .cut hs hw
  | blocked hs => exact .blocked hs
  | refused hs => exact .refused hs

/-- After a success the texts that are left have their turn. -/
theorem append {attempts' : List Attempt} (h : Sending texts (.ok ()) attempts)
    (h' : Sending rest r attempts') : Sending (texts ++ rest) r (attempts ++ attempts') := by
  generalize hok : Except.ok () = r₁ at h
  induction h with
  | done => exact h'
  | sent hs _ ih => exact .sent hs (ih hok)
  | cut _ _ | blocked _ | refused _ => cases hok

/-- When all texts are sent, the wire carries their expansion. -/
theorem wire_of_ok (h : Sending texts (.ok ()) attempts) :
    attempts.flatMap Attempt.wire = expand texts.flatten := by
  generalize hr : Except.ok () = r at h
  induction h with
  | done => rfl
  | sent _ _ ih => rw [List.flatMap_cons, List.flatten_cons, expand_append, ih hr, Attempt.wire]
  | cut _ _ | blocked _ | refused _ => cases hr

end Sending

variable {slots : Nat} {κ : Type}

/-- Texts for a port, which are dropped if the port is not registered. -/
def Driver.textsFor (d : Driver slots) (port : PortId) (texts : List (List UInt8)) :
    List (List UInt8) :=
  if (d.ports.resolve port).isSome then texts else []

/-- The texts that a call hands to the transmitter, unless one of them fails. -/
def Call.texts (d : Driver slots) : Call → List (List UInt8)
  | .init _ _ _ base => if d.Accepts base then d.config.banner.toList else []
  | .putChar port byte => d.textsFor port [[byte]]
  | .write port data => d.textsFor port [data]
  | .writeBytes port data => d.textsFor port ([data].filter (· ≠ []))
  | .writeAll port data => d.textsFor port ([data].filter (· ≠ []))
  | .writeText port text => d.textsFor port ([text].filter (· ≠ []))
  | .writePieces port pieces => d.textsFor port (pieces.filter (· ≠ []))
  | .flush _ => []
  | .getChar _ _ => []
  | .drain _ _ => []
  | .borrow _ => []
  | .readBytes _ _ => []
  | .readExact _ _ => []

/-- What the answer to a call tells of how its sending ended. An initialization that finds no free
id has sent its banner before, and formatted output does not tell a cause. -/
def Reply.Reports : Reply → Except IoError Unit → Prop
  | .port (.ok _), r => r = .ok ()
  | .port (.error (.transmit e)), r => r = .error e
  | .port (.error .registryFull), r => r = .ok ()
  | .done result, r => r = result
  | .count result, r => r = result.map fun _ => ()
  | .text (.ok ()), r => r = .ok ()
  | .text (.error .failed), r => r ≠ .ok ()
  | _, _ => False

theorem reports_text_iff {result : Except FormatError Unit} {r : Except IoError Unit} :
    (Reply.text result).Reports r ↔ (r = .ok () ↔ result = .ok ()) := by
  cases result <;> simp [Reply.Reports]

/-- An answer that tells of success tells of nothing else. -/
theorem Reply.Reports.eq_ok {reply : Reply} {r : Except IoError Unit}
    (h : reply.Reports (.ok ())) (hr : reply.Reports r) : r = .ok () := by
  unfold Reports at h hr
  split at h
  · exact hr
  · cases h
  · exact hr
  · exact hr.trans h.symm
  · exact hr.trans h.symm
  · exact hr
  · exact absurd rfl h
  · exact h.elim

namespace Entry

/-- The texts that an entry hands to the transmitter. -/
def texts : Entry slots κ → List (List UInt8)
  | .call d c _ _ => c.texts d
  | .control _ => []

/-- An entry sends all its texts, if it has any. -/
def Succeeds : Entry slots κ → Prop
  | .call d c reply _ => c.texts d ≠ [] → reply.Reports (.ok ())
  | .control _ => True

/-- The attempts that were made in an entry: those for its texts, as its answer tells, with one
critical section for each attempt that was announced. -/
inductive Explained : Entry slots κ → List Attempt → Prop where
  /-- A control attempts nothing. -/
  | control {k : κ} : Explained (.control k) []
  /-- A call attempts to send its texts. -/
  | call {d : Driver slots} {c : Call} {reply : Reply} {t : List Event}
      {r : Except IoError Unit} {attempts : List Attempt} : Sending (c.texts d) r attempts →
      (c.texts d ≠ [] → reply.Reports r) →
      t.count (.act .enter) = (attempts.flatMap Attempt.announced).length →
      Explained (.call d c reply t) attempts

theorem Explained.wire_of_succeeds {e : Entry slots κ} {attempts : List Attempt}
    (h : e.Explained attempts) (he : e.Succeeds) :
    attempts.flatMap Attempt.wire = expand e.texts.flatten := by
  cases h with
  | control => rfl
  | @call d c _ _ r _ hs hr _ =>
    suffices r = .ok () by
      subst this
      exact hs.wire_of_ok
    by_cases hne : c.texts d = []
    · rw [hne] at hs
      cases hs
      rfl
    · exact (he hne).eq_ok (hr hne)

end Entry

end PolledUart
