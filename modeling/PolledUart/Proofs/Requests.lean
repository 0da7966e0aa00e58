import PolledUart.Proofs.Completion
import PolledUart.Stream

/-!
# What a program asks of the machine

A program makes requests: it reads registers, performs actions, and where it has no
result to go on with it asks to be stopped. What it may ask for can be read off the
program without running it. `Program.Asks P Q` says that, whatever its reads answer, a
program makes only requests of `P` and ends only with values of `Q`. It is proved along
the program, by one rule for each way to build one, and holds of every completed run.

* `Bus.Completes.asks` — the events of a completed run are requests of `P`.
* `PollPolicy.asks_waitFrom` — a wait never stops the machine: its count of misses does
  not overflow.
* `Transmit.asks_transmit`, `Receive.asks_fetch` — sending and receiving.
* `Driver.asks_getChar` and the theorems after it — reading a port asks for no more than
  fetching does, and leaves the configuration and the ports as they are.
-/

namespace PolledUart

/-- Something a program can ask of the machine that runs it. -/
inductive Request where
  /-- The value of a register. -/
  | read (address : Address)
  /-- An action. -/
  | act (action : Action)
  /-- To be stopped, because there is no result to go on with. -/
  | stop

/-- The request that an event answers. -/
def Event.request : Event → Request
  | .read a _ => .read a
  | .act c => .act c

namespace Program

variable {α β : Type} {P P' : Request → Prop} {Q Q' : α → Prop} {R : β → Prop}

/-- Whatever it reads, the program makes only requests of `P` and ends only with values of
`Q`. -/
def Asks (P : Request → Prop) (Q : α → Prop) : Program α → Prop
  | .done a => Q a
  | .fault => P .stop
  | .limit => True
  | .read a next => P (.read a) ∧ ∀ v, Asks P Q (next v)
  | .act c next => P (.act c) ∧ Asks P Q next

theorem Asks.bind {p : Program α} {f : α → Program β} (hp : p.Asks P Q)
    (hf : ∀ a, Q a → (f a).Asks P R) : (p.bind f).Asks P R := by
  induction p with
  | done a => exact hf a hp
  | fault => exact hp
  | limit => trivial
  | read _ next ih => exact ⟨hp.1, fun v => ih v (hp.2 v)⟩
  | act c next ih => exact ⟨hp.1, ih hp.2⟩

theorem Asks.mono {p : Program α} (hp : p.Asks P Q) (hP : ∀ r, P r → P' r)
    (hQ : ∀ a, Q a → Q' a) : p.Asks P' Q' := by
  induction p with
  | done a => exact hQ a hp
  | fault => exact hP _ hp
  | limit => trivial
  | read _ next ih => exact ⟨hP _ hp.1, fun v => ih v (hp.2 v)⟩
  | act c next ih => exact ⟨hP _ hp.1, ih hp.2⟩

theorem asks_perform {c : Action} (h : P (.act c)) : (perform c).Asks P fun _ => True :=
  ⟨h, trivial⟩

theorem asks_require {o : Option α} (h : o = none → P .stop) :
    (require o).Asks P fun a => o = some a := by
  cases o with
  | none => exact h rfl
  | some a => exact rfl

end Program

/-- A completed run was asked for. -/
theorem Bus.Completes.asks {σ α : Type} {bus : Bus σ} {p : Program α} {s s' : σ}
    {t : List Event} {a : α} {P : Request → Prop} {Q : α → Prop}
    (h : bus.Completes p s t a s') (hp : p.Asks P Q) : Q a ∧ ∀ e ∈ t, P e.request := by
  induction h with
  | done => exact ⟨hp, fun e he => absurd he List.not_mem_nil⟩
  | read _ _ ih =>
    obtain ⟨hQ, hP⟩ := ih (hp.2 _)
    exact ⟨hQ, List.forall_mem_cons.2 ⟨hp.1, hP⟩⟩
  | act _ _ ih =>
    obtain ⟨hQ, hP⟩ := ih hp.2
    exact ⟨hQ, List.forall_mem_cons.2 ⟨hp.1, hP⟩⟩

/-! ### Waits -/

namespace PollPolicy

variable {policy : PollPolicy} {misses : UInt32} {P : Request → Prop}

/-- The number of misses is one that a wait can have counted: below the budget, if there is
one, unless the wait has just begun. -/
def Counted (policy : PollPolicy) (misses : UInt32) : Prop :=
  match policy with
  | .forever => True
  | .budget polls => misses = 0 ∨ misses < polls

theorem counted_zero (policy : PollPolicy) : policy.Counted 0 := by
  cases policy with
  | forever => trivial
  | budget polls => exact .inl rfl

theorem Counted.miss_ne_fault (h : policy.Counted misses) : policy.miss misses ≠ .fault := by
  cases policy with
  | forever => exact nofun
  | budget polls => exact miss_budget_ne_fault h

theorem Counted.again {misses' : UInt32} (h : policy.miss misses = .again misses') :
    policy.Counted misses' := by
  cases policy with
  | forever => trivial
  | budget polls =>
    unfold miss at h
    dsimp only at h
    split at h
    · split at h
      · cases h
      · rename_i hlt
        obtain rfl := AfterMiss.again.inj h
        exact .inr (UInt32.not_le.1 hlt)
    · cases h

/-- A wait polls its register and delays. Its count of misses does not overflow. -/
theorem asks_waitFrom {address : Address} {mask : UInt32} (hread : P (.read address))
    (hdelay : P (.act (.delay 1))) (turns : Nat) (h : policy.Counted misses) :
    (policy.waitFrom address mask turns misses).Asks P fun _ => True := by
  induction turns using Nat.strongRecOn generalizing misses with
  | ind turns ih =>
    unfold waitFrom
    refine ⟨hread, fun v => ?_⟩
    dsimp only
    split
    · trivial
    · split
      · trivial
      · rename_i hfault
        exact absurd hfault h.miss_ne_fault
      · rename_i hagain
        split
        · trivial
        · exact ⟨hdelay, ih _ (Nat.lt_succ_self _) (.again hagain)⟩

end PollPolicy

/-! ### Accesses of a block -/

namespace Block

variable {P : Request → Prop} {b : Block} {r : Register}

theorem asks_address (hstop : b.address? r = none → P .stop) :
    (b.address r).Asks P fun a => a = b.location r :=
  (Program.asks_require hstop).mono (fun _ h => h) fun _ h => eq_location h

theorem asks_read (hstop : b.address? r = none → P .stop) (h : P (.read (b.location r))) :
    (b.read r).Asks P fun _ => True :=
  (asks_address hstop).bind fun _ ha => ha ▸ ⟨h, fun _ => trivial⟩

theorem asks_write {v : UInt32} (hstop : b.address? r = none → P .stop)
    (h : P (.act (.write (b.location r) v))) : (b.write r v).Asks P fun _ => True :=
  (asks_address hstop).bind fun _ ha => Program.asks_perform (ha ▸ h)

theorem asks_waitFor {policy : PollPolicy} {fuel : Nat} {mask : UInt32}
    (hstop : b.address? r = none → P .stop) (h : P (.read (b.location r)))
    (hdelay : P (.act (.delay 1))) : (b.waitFor policy fuel r mask).Asks P fun _ => True :=
  (asks_address hstop).bind fun _ ha =>
    PollPolicy.asks_waitFrom (ha ▸ h) hdelay _ policy.counted_zero

end Block

/-! ### Sending -/

namespace Transmit

variable {P : Request → Prop} {b : Block} {policy : PollPolicy} {fuel : Nat}

/-- `P` allows what a transfer on a block asks for. -/
structure Allowed (b : Block) (P : Request → Prop) : Prop where
  stop : ∀ q, b.address? q = none → P .stop
  look : ∀ q ∈ [Register.sr, .isr], P (.read (b.location q))
  delay : P (.act (.delay 1))
  enter : P (.act .enter)
  leave : P (.act .leave)
  count : ∀ v, P (.act (.write (b.location .noCharsForTx) v))
  command : ∀ c ∈ [Command.resetTxReady, Command.resetTx], P (.act (.write (b.location .cr) c))
  data : ∀ v, P (.act (.write (b.location .tf) v))

/-- Sending looks at the two status registers, and writes the count, the words and two
commands. -/
theorem asks_transmit {data : List UInt8} (h : Allowed b P) :
    (transmit b policy fuel data).Asks P fun _ => True := by
  have hstatus := h.look .sr (by simp)
  have hsend : ∀ ws, (sendWords b policy fuel ws).Asks P fun _ => True := by
    intro ws
    induction ws with
    | nil => trivial
    | cons w rest ih =>
      refine (Block.asks_waitFor (h.stop _) hstatus h.delay).bind fun r _ => ?_
      cases r with
      | error _ =>
        exact (Block.asks_write (h.stop _) (h.command _ (by simp))).bind fun _ _ => trivial
      | ok _ => exact (Block.asks_write (h.stop _) (h.data _)).bind fun _ _ => ih
  have hidle : (awaitIdle b policy fuel).Asks P fun _ => True := by
    refine (Block.asks_read (h.stop _) hstatus).bind fun v _ => ?_
    split
    · exact Block.asks_waitFor (h.stop _) (h.look .isr (by simp)) h.delay
    · trivial
  unfold transmit
  split
  · trivial
  · split
    · trivial
    · rename_i count _
      refine hidle.bind fun r _ => ?_
      cases r with
      | error _ => trivial
      | ok _ =>
        exact (Program.asks_perform h.enter).bind fun _ _ =>
          (Block.asks_write (h.stop _) (h.count count)).bind fun _ _ =>
          (Block.asks_write (h.stop _) (h.command _ (by simp))).bind fun _ _ =>
          (hsend _).bind fun _ _ => (Program.asks_perform h.leave).bind fun _ _ => trivial

/-- Draining polls the status register. -/
theorem asks_drain (h : Allowed b P) : (drain b policy fuel).Asks P fun _ => True :=
  Block.asks_waitFor (h.stop _) (h.look .sr (by simp)) h.delay

end Transmit

/-! ### Receiving -/

namespace Receive

variable {P : Request → Prop} {b : Block}

/-- `P` allows what a fetch on a block asks for. -/
structure Allowed (b : Block) (P : Request → Prop) : Prop where
  stop : ∀ q, b.address? q = none → P .stop
  look : ∀ q ∈ [Register.sr, .rxfs, .rf], P (.read (b.location q))
  command : ∀ c ∈ [Command.resetErrorStatus, Command.forceStale, Command.resetStaleInterrupt],
    P (.act (.write (b.location .cr) c))
  rearm : P (.act (.write (b.location .dmrx) receiveOneWord))

theorem asks_fetch (h : Allowed b P) : (fetch b).Asks P fun _ => True := by
  have hstatus := Block.asks_read (h.stop _) (h.look .sr (by simp))
  have hdata := Block.asks_read (h.stop _) (h.look .rf (by simp))
  have hclear : (clearOverrun b).Asks P fun _ => True :=
    hstatus.bind fun v _ => by
      split
      · exact Block.asks_write (h.stop _) (h.command _ (by simp))
      · trivial
  have hforce : (forceOut b).Asks P fun _ => True :=
    (Block.asks_write (h.stop _) (h.command _ (by simp))).bind fun _ _ => hdata.bind fun _ _ =>
      (Block.asks_write (h.stop _) (h.command _ (by simp))).bind fun _ _ =>
      (Block.asks_write (h.stop _) h.rearm).bind fun _ _ => trivial
  refine hclear.bind fun _ _ => hstatus.bind fun v _ => ?_
  split
  · exact hdata.bind fun _ _ => trivial
  · refine (Block.asks_read (h.stop _) (h.look .rxfs (by simp))).bind fun c _ => ?_
    dsimp only
    split
    · trivial
    · exact hforce.bind fun _ _ => trivial

theorem asks_fetchWaiting (h : Allowed b P) (turns : Nat) :
    (fetchWaiting b turns).Asks P fun _ => True := by
  induction turns with
  | zero =>
    unfold fetchWaiting
    refine (asks_fetch h).bind fun r _ => ?_
    cases r <;> trivial
  | succ turns ih =>
    unfold fetchWaiting
    refine (asks_fetch h).bind fun r _ => ?_
    cases r with
    | none => exact ih
    | some _ => trivial

end Receive

/-! ### Operations of a driver -/

namespace Driver

variable {slots : Nat} {P : Request → Prop} {d : Driver slots} {fuel : Nat} {port : PortId}

/-- The two drivers have the same configuration and the same ports; their receive caches may
differ. -/
def SameSetup (d d' : Driver slots) : Prop := d'.config = d.config ∧ d'.ports = d.ports

theorem SameSetup.refl (d : Driver slots) : d.SameSetup d := ⟨rfl, rfl⟩

theorem SameSetup.trans {d₁ d₂ d₃ : Driver slots} (h : d₁.SameSetup d₂) (h' : d₂.SameSetup d₃) :
    d₁.SameSetup d₃ := ⟨h'.1.trans h.1, h'.2.trans h.2⟩

/-- `P` allows sending on a port, if it is registered. -/
def MaySend (d : Driver slots) (port : PortId) (P : Request → Prop) : Prop :=
  ∀ base, d.ports.resolve port = some base → Transmit.Allowed (d.block base) P

/-- `P` allows reading a port, if it is registered. -/
def MayRead (d : Driver slots) (port : PortId) (P : Request → Prop) : Prop :=
  ∀ base, d.ports.resolve port = some base → Receive.Allowed (d.block base) P

theorem SameSetup.mayRead {d' : Driver slots} (h : d.SameSetup d') (hP : d.MayRead port P) :
    d'.MayRead port P := by
  obtain ⟨hc, hp⟩ := h
  intro base hbase
  unfold block
  rw [hc]
  exact hP base (hp ▸ hbase)

/-- A registered port has a slot. -/
theorem index_lt_of_resolve {base : Address} (hport : d.ports.resolve port = some base) :
    port.index < slots := by
  obtain ⟨h, -⟩ := List.getElem?_eq_some_iff.1 hport
  exact Nat.lt_of_lt_of_le h d.ports.length_le

theorem asks_onPort {α : Type} {operation : Block → Program (Except IoError α)}
    (h : ∀ base, d.ports.resolve port = some base →
      (operation (d.block base)).Asks P fun _ => True) :
    (d.onPort port operation).Asks P fun _ => True := by
  unfold onPort
  split
  · trivial
  · rename_i base hport
    exact h base hport

theorem asks_write {data : List UInt8} (hP : d.MaySend port P) :
    (d.write fuel port data).Asks P fun _ => True :=
  asks_onPort fun base hport => Transmit.asks_transmit (hP base hport)

theorem asks_flush (hP : d.MaySend port P) : (d.flush fuel port).Asks P fun _ => True :=
  asks_onPort fun base hport => Transmit.asks_drain (hP base hport)

theorem asks_writeBytes {data : List UInt8} (hP : d.MaySend port P) :
    (d.writeBytes fuel port data).Asks P fun _ => True := by
  unfold writeBytes
  split
  · trivial
  · refine (asks_write hP).bind fun r _ => ?_
    cases r <;> trivial

theorem asks_writeAll {data : List UInt8} (hP : d.MaySend port P) :
    (d.writeAll fuel port data).Asks P fun _ => True := by
  unfold writeAll
  split
  · trivial
  · refine (asks_writeBytes hP).bind fun r _ => ?_
    cases r <;> trivial

theorem asks_writeText {text : List UInt8} (hP : d.MaySend port P) :
    (d.writeText fuel port text).Asks P fun _ => True := by
  unfold writeText
  split
  · trivial
  · refine (asks_write hP).bind fun r _ => ?_
    cases r <;> trivial

theorem asks_writePieces {pieces : List (List UInt8)} (hP : d.MaySend port P) :
    (d.writePieces fuel port pieces).Asks P fun _ => True := by
  induction pieces with
  | nil => trivial
  | cons piece rest ih =>
    refine (asks_writeText hP).bind fun r _ => ?_
    cases r with
    | error _ => trivial
    | ok _ => exact ih

theorem asks_setCache {slot : Nat} {cache : RxCache} (h : slots ≤ slot → P .stop) :
    (d.setCache slot cache).Asks P d.SameSetup := by
  unfold setCache
  split
  · exact ⟨rfl, rfl⟩
  · rename_i hslot
    exact h (Nat.not_lt.1 hslot)

theorem asks_takeFrom {slot : Nat} {cache : RxCache} (h : slots ≤ slot → P .stop) :
    (d.takeFrom slot cache).Asks P fun r => d.SameSetup r.2 := by
  unfold takeFrom
  split
  · exact SameSetup.refl d
  · exact (asks_setCache h).bind fun _ h => h

theorem asks_getChar {wait : Bool} (hP : d.MayRead port P) :
    (d.getChar fuel port wait).Asks P fun r => d.SameSetup r.2 := by
  unfold getChar
  split
  · exact SameSetup.refl d
  · rename_i base hport
    -- the slot of a registered port exists, so its cache is found and replaced
    have hslot : slots ≤ port.index → P .stop := fun h =>
      absurd (index_lt_of_resolve hport) (Nat.not_lt.2 h)
    have hword : (fetchWord fuel wait (d.block base)).Asks P fun _ => True := by
      unfold fetchWord
      split
      · exact (Receive.asks_fetchWaiting (hP base hport) fuel).bind fun _ _ => trivial
      · exact Receive.asks_fetch (hP base hport)
    have hcache : (d.cache port.index).Asks P fun _ => True := by
      unfold cache
      split
      · trivial
      · rename_i h
        exact hslot (Nat.not_lt.1 h)
    refine hcache.bind fun cache _ => ?_
    split
    · refine hword.bind fun received _ => ?_
      cases received with
      | none => exact SameSetup.refl d
      | some _ => exact asks_takeFrom hslot
    · exact asks_takeFrom hslot

theorem asks_drain (hP : d.MayRead port P) (max : Nat) :
    (d.drain fuel port max).Asks P fun r => d.SameSetup r.2 := by
  induction max generalizing d with
  | zero => exact SameSetup.refl d
  | succ max ih =>
    refine (asks_getChar hP).bind fun ⟨r, d₁⟩ h₁ => ?_
    cases r with
    | error _ => exact h₁
    | ok _ => exact (ih (h₁.mayRead hP)).bind fun ⟨_, d₂⟩ h₂ => h₁.trans h₂

theorem asks_takeReady (hP : d.MayRead port P) (room : Nat) :
    (d.takeReady fuel port room).Asks P fun r => d.SameSetup r.2 := by
  induction room generalizing d with
  | zero => exact SameSetup.refl d
  | succ room ih =>
    refine (asks_getChar hP).bind fun ⟨r, d₁⟩ h₁ => ?_
    cases r with
    | error e => cases e <;> exact h₁
    | ok _ => exact (ih (h₁.mayRead hP)).bind fun ⟨_, d₂⟩ h₂ => h₁.trans h₂

theorem asks_readBytes (hP : d.MayRead port P) (room : Nat) :
    (d.readBytes fuel port room).Asks P fun r => d.SameSetup r.2 := by
  cases room with
  | zero => exact SameSetup.refl d
  | succ room =>
    refine (asks_getChar hP).bind fun ⟨r, d₁⟩ h₁ => ?_
    cases r with
    | error _ => exact h₁
    | ok _ => exact (asks_takeReady (h₁.mayRead hP) room).bind fun ⟨_, d₂⟩ h₂ => h₁.trans h₂

theorem asks_fillFrom (hP : d.MayRead port P) (reads room : Nat) :
    (d.fillFrom fuel port reads room).Asks P fun r => d.SameSetup r.2 := by
  induction reads generalizing d room with
  | zero => cases room <;> exact SameSetup.refl d
  | succ reads ih =>
    cases room with
    | zero => exact SameSetup.refl d
    | succ room =>
      refine (asks_readBytes hP (room + 1)).bind fun ⟨filled, d₁⟩ h₁ => ?_
      obtain ⟨bytes, result⟩ := filled
      match result with
      | .error _ => exact h₁
      | .ok 0 => exact h₁
      | .ok (n + 1) => exact (ih (h₁.mayRead hP) _).bind fun ⟨_, d₂⟩ h₂ => h₁.trans h₂

end Driver

end PolledUart
