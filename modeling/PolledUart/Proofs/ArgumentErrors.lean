import PolledUart.Proofs.Attempts
import PolledUart.Proofs.CallEffects
import PolledUart.Proofs.CallMirroring
import PolledUart.Proofs.TransmitWrites

/-!
# Errors in the arguments of a call

A call on a port can be wrong in two ways before the hardware comes into play:
the port has never been registered, or the text is empty or too long to be
announced. The port is looked up first, so an empty text on an unknown port is
an unknown port. Either way the call is refused (`Session.Refuses`): it answers
with the cause, nothing happens on the bus, and the session is what it was.

That these answers are given in no other case is read off what a transfer, a
drain and a read can end with (`Transmit.error_of_completes`,
`Transmit.error_of_drain`, `Takes.error_eq`): a bus can make a transfer time out,
and can leave a read without a character, but cannot make up either of the two
causes above.
-/

namespace PolledUart

open Newline

variable {σ : Type} {slots : Nat} {bus : Bus σ} {fuel : Nat}

/-! ## What can be told from the arguments -/

theorem Registry.resolve_eq_none_iff {r : Registry slots} {port : PortId} :
    r.resolve port = none ↔ r.size ≤ port.index :=
  List.getElem?_eq_none_iff

theorem Registry.exists_resolve {r : Registry slots} {port : PortId} (h : port.index < r.size) :
    ∃ base, r.resolve port = some base :=
  ⟨r.bases[port.index], List.getElem?_eq_getElem h⟩

/-- The text is empty, or its characters and one more for each of its line feeds are more than the
count register takes. -/
def Unsendable (text : List UInt8) : Prop :=
  text = [] ∨ 0xffffffff < text.length + text.count lineFeed

theorem unsendable_iff {text : List UInt8} : Unsendable text ↔ ¬ Sendable text := by
  unfold Unsendable Sendable physicalLength
  by_cases hempty : text = []
  · simp [hempty]
  · simp only [hempty, false_or, ne_eq, not_false_eq_true, true_and]
    omega

/-- A single character is never too long. -/
theorem not_unsendable_singleton (byte : UInt8) : ¬ Unsendable [byte] := by
  have hcount : [byte].count lineFeed ≤ 1 := List.count_le_length
  simp only [Unsendable, List.cons_ne_nil, List.length_singleton, false_or]
  omega

/-! ## How the operations end -/

section Operations

variable {b : Block} {policy : PollPolicy} {text : List UInt8} {s s' : σ} {t : List Event}
  {e : IoError}

theorem Transmit.transmit_of_unsendable (h : Unsendable text) :
    transmit b policy fuel text = .done (.error .invalidArgument) :=
  transmit_of_refused (h.imp_right Nat.succ_le_of_lt)

/-- A transfer fails because of its text, or because it times out. -/
theorem Transmit.error_of_completes
    (h : bus.Completes (transmit b policy fuel text) s t (.error e) s') :
    e = .invalidArgument ∧ Unsendable text ∨ e = .timeout ∧ ¬ Unsendable text := by
  by_cases htext : Sendable text
  · obtain ⟨count, hcount, -⟩ := count?_of_lt htext.2
    refine .inr ⟨?_, fun hbad => unsendable_iff.mp hbad htext⟩
    rcases (transmits_of_completes htext.1 hcount h).writes_eq with
      ⟨hok, -⟩ | ⟨herror, -⟩ | ⟨herror, -⟩
    · cases hok
    · exact Except.error.inj herror
    · exact Except.error.inj herror
  · have hbad : Unsendable text := unsendable_iff.mpr htext
    rw [transmit_of_unsendable hbad] at h
    obtain ⟨-, herror, -⟩ := Bus.completes_done_iff.1 h
    exact .inl ⟨Except.error.inj herror, hbad⟩

theorem Transmit.error_of_drain
    (h : bus.Completes (drain b policy fuel) s t (.error e) s') : e = .timeout :=
  (Block.polled_of_waitFor h).error_eq

end Operations

/-! ## Calls that fail, and calls that are refused -/

/-- The call completes, and its answer is a failure with this cause. -/
def Session.FailsWith (bus : Bus σ) (fuel : Nat) (c : Call) (x : Session σ slots) (e : IoError) :
    Prop :=
  ∃ reply x' t, perform bus fuel c x = ⟨.ok reply x', t⟩ ∧ reply.cause? = some e

/-- The call completes with such an answer, and that is all: there is no event, and the driver and
the bus are as before. -/
def Session.Refuses (bus : Bus σ) (fuel : Nat) (c : Call) (x : Session σ slots) (e : IoError) :
    Prop :=
  ∃ reply, perform bus fuel c x = ⟨.ok reply x, []⟩ ∧ reply.cause? = some e

/-- The calls of the driver itself on a port. The others go through one of these. -/
inductive Call.Direct (port : PortId) : Call → Prop where
  | putChar (byte : UInt8) : Direct port (.putChar port byte)
  | write (text : List UInt8) : Direct port (.write port text)
  | flush : Direct port (.flush port)
  | getChar (wait : Bool) : Direct port (.getChar port wait)
  | borrow : Direct port (.borrow port)

namespace Session

variable {x : Session σ slots} {c : Call} {port : PortId} {base : Address} {e : IoError}
  {reply : Reply} {text : List UInt8}

theorem Refuses.failsWith (h : Refuses bus fuel c x e) : FailsWith bus fuel c x e := by
  obtain ⟨reply, hperform, hcause⟩ := h
  exact ⟨reply, x, [], hperform, hcause⟩

/-- A call whose program is over at once answers and does nothing. -/
theorem perform_of_done (h : c.program fuel x.driver = .done (reply, x.driver)) :
    perform bus fuel c x = ⟨.ok reply x, []⟩ := by
  rw [perform_eq_ok_iff, h]
  exact .done

/-! ### A port that is not registered -/

/-- The port is looked up before anything else. -/
theorem refuses_of_unregistered (hport : x.driver.ports.resolve port = none)
    (hc : c.Direct port) : Refuses bus fuel c x .uninitialized := by
  have honPort : ∀ {α : Type} (operation : Block → Program (Except IoError α)),
      x.driver.onPort port operation = .done (.error .uninitialized) := by
    intro α operation
    rw [Driver.onPort, hport]
    rfl
  cases hc with
  | putChar byte | write text | flush | borrow =>
    refine ⟨.done (.error .uninitialized), perform_of_done ?_, rfl⟩
    simp only [Call.program, Driver.putChar, Driver.write, Driver.flush, honPort]
    rfl
  | getChar wait =>
    refine ⟨.byte (.error .uninitialized), perform_of_done ?_, rfl⟩
    rw [Call.program, Driver.getChar_of_none hport]
    rfl

/-! ### A registered port -/

/-- A call that is an operation on the block of a registered port fails as that operation does. -/
theorem completes_of_failsWith {operation : Block → Program (Except IoError Unit)}
    (hport : x.driver.ports.resolve port = some base)
    (hc : c.program fuel x.driver =
      (x.driver.onPort port operation).bind fun r => .done (.done r, x.driver))
    (h : FailsWith bus fuel c x e) :
    ∃ t s', bus.Completes (operation (x.driver.block base)) x.bus t (.error e) s' := by
  obtain ⟨reply, x', t, hperform, hcause⟩ := h
  rw [perform_eq_ok_iff, hc, Bus.completes_bind_done_iff] at hperform
  obtain ⟨r, hrun, heq⟩ := hperform
  obtain ⟨rfl, -⟩ := Prod.mk.inj heq
  rw [Driver.onPort, hport] at hrun
  cases r with
  | error e' =>
    obtain rfl := Option.some.inj hcause
    exact ⟨t, x'.bus, hrun⟩
  | ok _ => cases hcause

theorem error_of_write (hport : x.driver.ports.resolve port = some base)
    (h : FailsWith bus fuel (.write port text) x e) :
    e = .invalidArgument ∧ Unsendable text ∨ e = .timeout ∧ ¬ Unsendable text := by
  obtain ⟨t, s', hrun⟩ := completes_of_failsWith hport rfl h
  exact Transmit.error_of_completes hrun

theorem error_of_putChar {byte : UInt8} (hport : x.driver.ports.resolve port = some base)
    (h : FailsWith bus fuel (.putChar port byte) x e) : e = .timeout := by
  -- one character is a text of one character
  have hwrite : FailsWith bus fuel (.write port [byte]) x e := h
  rcases error_of_write hport hwrite with ⟨-, hbad⟩ | ⟨htimeout, -⟩
  · exact absurd hbad (not_unsendable_singleton byte)
  · exact htimeout

theorem error_of_flush (hport : x.driver.ports.resolve port = some base)
    (h : FailsWith bus fuel (.flush port) x e) : e = .timeout := by
  obtain ⟨t, s', hrun⟩ := completes_of_failsWith hport rfl h
  exact Transmit.error_of_drain hrun

theorem error_of_getChar {wait : Bool} (hport : x.driver.ports.resolve port = some base)
    (h : FailsWith bus fuel (.getChar port wait) x e) : e = .rxNotReady := by
  obtain ⟨reply, x', t, hperform, hcause⟩ := h
  rw [perform_eq_ok_iff, Call.program] at hperform
  obtain ⟨⟨r, d'⟩, hrun, heq⟩ := Bus.completes_bind_done_iff.1 hperform
  obtain ⟨rfl, -⟩ := Prod.mk.inj heq
  obtain ⟨cache, htakes, -⟩ := Driver.takes_of_getChar hport hrun
  cases r with
  | error e' =>
    obtain rfl := Option.some.inj hcause
    exact htakes.error_eq
  | ok _ => cases hcause

/-- On a registered port no call finds the port missing. -/
theorem not_failsWith_uninitialized (hport : x.driver.ports.resolve port = some base)
    (hc : c.Direct port) : ¬ FailsWith bus fuel c x .uninitialized := by
  intro h
  cases hc with
  | putChar byte => cases error_of_putChar hport h
  | write text => rcases error_of_write hport h with ⟨h, -⟩ | ⟨h, -⟩ <;> cases h
  | flush => cases error_of_flush hport h
  | getChar wait => cases error_of_getChar hport h
  | borrow =>
    obtain ⟨t, s', hrun⟩ := completes_of_failsWith hport rfl h
    cases hrun

/-- A text that cannot be announced is refused before the first access. -/
theorem refuses_of_unsendable (hport : x.driver.ports.resolve port = some base)
    (htext : Unsendable text) : Refuses bus fuel (.write port text) x .invalidArgument := by
  refine ⟨.done (.error .invalidArgument), perform_of_done ?_, rfl⟩
  rw [Call.program, Driver.write, Driver.onPort, hport]
  simp only [Transmit.transmit_of_unsendable htext]
  rfl

end Session

open Session

/-- **Argument errors are exact, and touch nothing.** On every bus, in every state of the driver: a
call on a port says that the port is not initialized exactly when its id is not below the number of
registered ports, whatever the text, and then nothing happens. On a registered port a write says
that its argument is invalid exactly when the text is empty or too long with its line feeds doubled,
and then nothing happens; through the stream an empty text succeeds, and nothing happens either.
All that can go wrong otherwise with a write or a flush is that it times out. -/
theorem argument_errors_exact (bus : Bus σ) (fuel : Nat) (x : Session σ slots) (port : PortId)
    (text : List UInt8) :
    (∀ c : Call, c.Direct port →
      (FailsWith bus fuel c x .uninitialized ↔ x.driver.ports.size ≤ port.index) ∧
      (x.driver.ports.size ≤ port.index → Refuses bus fuel c x .uninitialized)) ∧
    (port.index < x.driver.ports.size →
      (FailsWith bus fuel (.write port text) x .invalidArgument ↔ Unsendable text) ∧
      (Unsendable text → Refuses bus fuel (.write port text) x .invalidArgument)) ∧
    perform bus fuel (.writeBytes port []) x = ⟨.ok (.count (.ok 0)) x, []⟩ ∧
    perform bus fuel (.writeText port []) x = ⟨.ok (.text (.ok ())) x, []⟩ ∧
    (port.index < x.driver.ports.size → ∀ e,
      (¬ Unsendable text → FailsWith bus fuel (.write port text) x e → e = .timeout) ∧
      (FailsWith bus fuel (.flush port) x e → e = .timeout)) := by
  refine ⟨?_, ?_, perform_of_done rfl, perform_of_done rfl, ?_⟩
  · intro c hc
    have hrefuses : x.driver.ports.size ≤ port.index → Refuses bus fuel c x .uninitialized :=
      fun h => refuses_of_unregistered (Registry.resolve_eq_none_iff.mpr h) hc
    refine ⟨⟨?_, fun h => (hrefuses h).failsWith⟩, hrefuses⟩
    intro hfails
    by_contra hlt
    obtain ⟨base, hport⟩ := Registry.exists_resolve (Nat.lt_of_not_le hlt)
    exact not_failsWith_uninitialized hport hc hfails
  · intro hlt
    obtain ⟨base, hport⟩ := Registry.exists_resolve hlt
    have hrefuses : Unsendable text → Refuses bus fuel (.write port text) x .invalidArgument :=
      refuses_of_unsendable hport
    refine ⟨⟨?_, fun h => (hrefuses h).failsWith⟩, hrefuses⟩
    intro hfails
    rcases error_of_write hport hfails with ⟨-, hbad⟩ | ⟨h, -⟩
    · exact hbad
    · cases h
  · intro hlt e
    obtain ⟨base, hport⟩ := Registry.exists_resolve hlt
    refine ⟨?_, error_of_flush hport⟩
    intro hgood hfails
    rcases error_of_write hport hfails with ⟨-, hbad⟩ | ⟨h, -⟩
    · exact absurd hbad hgood
    · exact h

end PolledUart
