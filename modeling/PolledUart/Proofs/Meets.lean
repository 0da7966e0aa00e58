import PolledUart.Proofs.Requests

/-!
# What a program does to the machine

Of the requests of a program only the actions change the machine. `Program.Meets P Q`
says of a program that it performs only actions of `P` and ends only with values of
`Q`; what it reads, and whether it asks to be stopped, is left open. It follows from
what the program asks for (`Program.Asks.meets`), and holds of every completed run.

* `Bus.Completes.meets` — a completed run ends with a value of `Q`, and the actions
  of its trace are in `P`.
* `Transmit.meets_transmit` — sending writes the count, the words and two commands.
* `Driver.meets_getChar` and the theorems after it — receiving writes only the
  command register and the transfer length, and leaves the configuration and the
  ports of the driver as they are.
-/

namespace PolledUart

/-- If the request is for an action, then for one of `P`. -/
def Request.Within (P : Action → Prop) : Request → Prop
  | .act c => P c
  | .read _ => True
  | .stop => True

namespace Program

variable {α β : Type} {P : Action → Prop} {Q : α → Prop} {R : β → Prop}

/-- Whatever it reads, the program performs only actions of `P` and ends only with values of
`Q`. -/
def Meets (P : Action → Prop) (Q : α → Prop) : Program α → Prop
  | .done a => Q a
  | .fault => True
  | .limit => True
  | .read _ next => ∀ v, Meets P Q (next v)
  | .act c next => P c ∧ Meets P Q next

/-- What a program asks for is what it does. -/
theorem Asks.meets {p : Program α} (hp : p.Asks (Request.Within P) Q) : p.Meets P Q := by
  induction p with
  | done a => exact hp
  | fault => trivial
  | limit => trivial
  | read _ next ih => exact fun v => ih v (hp.2 v)
  | act c next ih => exact ⟨hp.1, ih hp.2⟩

theorem Meets.bind {p : Program α} {f : α → Program β} (hp : p.Meets P Q)
    (hf : ∀ a, Q a → (f a).Meets P R) : (p.bind f).Meets P R := by
  induction p with
  | done a => exact hf a hp
  | fault => trivial
  | limit => trivial
  | read _ next ih => exact fun v => ih v (hp v)
  | act c next ih => exact ⟨hp.1, ih hp.2⟩

end Program

/-- A completed run did what its program can do. -/
theorem Bus.Completes.meets {σ α : Type} {bus : Bus σ} {p : Program α} {s s' : σ}
    {t : List Event} {a : α} {P : Action → Prop} {Q : α → Prop}
    (h : bus.Completes p s t a s') (hp : p.Meets P Q) : Q a ∧ ∀ c, .act c ∈ t → P c := by
  induction h with
  | done => exact ⟨hp, fun c hc => absurd hc List.not_mem_nil⟩
  | read _ _ ih =>
    obtain ⟨hQ, hP⟩ := ih (hp _)
    exact ⟨hQ, fun c hc => hP c ((List.mem_cons.1 hc).resolve_left nofun)⟩
  | act _ _ ih =>
    obtain ⟨hQ, hP⟩ := ih hp.2
    refine ⟨hQ, fun c hc => ?_⟩
    rcases List.mem_cons.1 hc with hc | hc
    · exact Event.act.inj hc ▸ hp.1
    · exact hP c hc

theorem Block.meets_waitFor {P : Action → Prop} {b : Block} {r : Register} {policy : PollPolicy}
    {fuel : Nat} {mask : UInt32} (h : P (.delay 1)) :
    (b.waitFor policy fuel r mask).Meets P fun _ => True :=
  (Block.asks_waitFor (P := Request.Within P) (fun _ => trivial) trivial h).meets

/-- Sending writes the count, the words and two commands. -/
theorem Transmit.meets_transmit {P : Action → Prop} {b : Block} {policy : PollPolicy} {fuel : Nat}
    {data : List UInt8} (hdelay : P (.delay 1)) (henter : P .enter)
    (hleave : P .leave) (hcount : ∀ v, P (.write (b.location .noCharsForTx) v))
    (hcommand : ∀ c ∈ [Command.resetTxReady, Command.resetTx], P (.write (b.location .cr) c))
    (hdata : ∀ v, P (.write (b.location .tf) v)) :
    (transmit b policy fuel data).Meets P fun _ => True := by
  have hallowed : Allowed b (Request.Within P) :=
    { stop := fun _ _ => trivial, look := fun _ _ => trivial, delay := hdelay, enter := henter,
      leave := hleave, count := hcount, command := hcommand, data := hdata }
  exact (asks_transmit hallowed).meets

namespace Driver

variable {slots : Nat} {P : Action → Prop} {d : Driver slots} {fuel : Nat} {port : PortId}

/-- The driver and all that it can become by receiving write only where `P` allows it. -/
def Allows (d : Driver slots) (P : Action → Prop) : Prop :=
  ∀ base ∈ d.ports.bases, ∀ v,
    P (.write ((d.block base).location .cr) v) ∧ P (.write ((d.block base).location .dmrx) v)

theorem Allows.mayRead (hP : d.Allows P) : d.MayRead port (Request.Within P) := by
  intro base hport
  have hbase : base ∈ d.ports.bases := List.mem_of_getElem? hport
  exact { stop := fun _ _ => trivial, look := fun _ _ => trivial,
          command := fun v _ => (hP base hbase v).1, rearm := (hP base hbase _).2 }

theorem meets_getChar {wait : Bool} (hP : d.Allows P) :
    (d.getChar fuel port wait).Meets P fun r => d.SameSetup r.2 :=
  (asks_getChar hP.mayRead).meets

theorem meets_drain (hP : d.Allows P) (max : Nat) :
    (d.drain fuel port max).Meets P fun r => d.SameSetup r.2 :=
  (asks_drain hP.mayRead max).meets

theorem meets_readBytes (hP : d.Allows P) (room : Nat) :
    (d.readBytes fuel port room).Meets P fun r => d.SameSetup r.2 :=
  (asks_readBytes hP.mayRead room).meets

theorem meets_fillFrom (hP : d.Allows P) (reads room : Nat) :
    (d.fillFrom fuel port reads room).Meets P fun r => d.SameSetup r.2 :=
  (asks_fillFrom hP.mayRead reads room).meets

end Driver

end PolledUart
