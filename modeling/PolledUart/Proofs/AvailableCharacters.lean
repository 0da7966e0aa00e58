import PolledUart.Proofs.DriverState
import PolledUart.Proofs.Initialization
import PolledUart.Proofs.Punctual
import PolledUart.Proofs.ReceiveAccount
import PolledUart.Proofs.Simulation
import PolledUart.Proofs.WaitingReads
import Mathlib.Algebra.GroupWithZero.Nat
import Mathlib.Data.List.SplitLengths

/-!
# A port as a queue of characters

The characters that can be read from a port come from three places: the cache that an earlier word
has left, the full words of the FIFO, and the packing buffer, which has to be forced out. Whoever
reads sees none of this. As long as none arrives meanwhile, the port of a bench block is a queue:
the characters of its cache and of the block, in this order (`Session.available`), and every read
takes from the front of it (`Call.serve?`).

* `Bus.Yields` — a program completes, and how.
* `Bench.yields_fetch` — a fetch brings the front of the queue of the block, and nothing only if
  that is empty.
* `Session.Readable.perform_serve`, `Session.Readable.replay_serve` — a call, and any number of
  calls, answer as the queue does.
* `read_available` — reads in every state that a driver can get into.
-/

namespace PolledUart

open Sim

variable {σ κ : Type} {slots : Nat}

/-! ### Programs that complete -/

namespace Bus

variable {α β : Type} {bus : Bus σ} {s : σ} {Q Q' : α → σ → Prop} {R : β → σ → Prop}

/-- From a state of the bus the program completes, with a value and a state as told. -/
def Yields (bus : Bus σ) (p : Program α) (s : σ) (Q : α → σ → Prop) : Prop :=
  ∃ t a s', bus.Completes p s t a s' ∧ Q a s'

theorem yields_done {a : α} (h : Q a s) : bus.Yields (.done a) s Q := ⟨[], a, s, .done, h⟩

theorem Yields.bind {p : Program α} {f : α → Program β} (h : bus.Yields p s Q)
    (hf : ∀ a s', Q a s' → bus.Yields (f a) s' R) : bus.Yields (p.bind f) s R := by
  obtain ⟨t, a, s₁, hp, hQ⟩ := h
  obtain ⟨u, b, s₂, hrest, hR⟩ := hf a s₁ hQ
  exact ⟨t ++ u, b, s₂, completes_bind_iff.2 ⟨a, s₁, t, u, hp, hrest, rfl⟩, hR⟩

theorem Yields.mono {p : Program α} (h : bus.Yields p s Q) (hQ : ∀ a s', Q a s' → Q' a s') :
    bus.Yields p s Q' := by
  obtain ⟨t, a, s', hp, ha⟩ := h
  exact ⟨t, a, s', hp, hQ a s' ha⟩

end Bus

/-! ### A fetch -/

namespace Sim.Bench

variable {b : Block} {d : Bench}

theorem yields_read (h : b.Addressable) (q : Register) :
    bus.Yields (b.read q) d fun v d' => d.read (b.location q) = (v, d') :=
  ⟨_, (d.read (b.location q)).1, (d.read (b.location q)).2,
    Block.completes_read_iff.2 ⟨h.address?_eq q, rfl, rfl⟩, rfl⟩

theorem yields_write (h : b.Addressable) (q : Register) (v : UInt32) :
    bus.Yields (b.write q v) d fun _ d' => d' = d.write (b.location q) v :=
  ⟨_, (), d.write (b.location q) v, Block.completes_write_iff.2 ⟨h.address?_eq q, rfl, rfl⟩, rfl⟩

theorem yields_clearOverrun (h : b.Addressable) (hm : TellsApart b.map) (hd : d.Serves b) :
    bus.Yields (Receive.clearOverrun b) d fun _ d' => d'.Serves b ∧ d'.rx = d.rx := by
  refine (yields_read h .sr).bind fun v d₁ hread => ?_
  obtain ⟨hs₁, hrx₁, -, -⟩ := hd.read_status hm hread
  split
  · refine (yields_write h .cr _).mono ?_
    rintro _ d₂ rfl
    exact ⟨hs₁.write _ _, (hs₁.write_command hm _ (by decide)).1.trans hrx₁⟩
  · exact Bus.yields_done ⟨hs₁, hrx₁⟩

/-- Forcing out the packing buffer takes up to four characters, whatever it was that waited. -/
theorem yields_forceOut (h : b.Addressable) (hm : TellsApart b.map) (hd : d.Serves b) :
    bus.Yields (Receive.forceOut b) d fun w d' =>
      d'.Serves b ∧ w = FifoWord.ofBytes (d.rx.take 4) ∧ d'.rx = d.rx.drop 4 := by
  refine (yields_write h .cr _).bind ?_
  rintro _ d₁ rfl
  obtain ⟨hrx₁, hstale₁⟩ := hd.write_command hm Command.forceStale (by decide)
  have hs₁ := hd.write (b.location .cr) Command.forceStale
  refine (yields_read h .rf).bind fun w d₂ hread => ?_
  obtain ⟨hs₂, hrx₂, -, rfl⟩ := hs₁.read_data hm (.inl (by rw [hstale₁]; simp)) hread
  refine (yields_write h .cr _).bind ?_
  rintro _ d₃ rfl
  obtain ⟨hrx₃, -⟩ := hs₂.write_command hm Command.resetStaleInterrupt (by decide)
  have hs₃ := hs₂.write (b.location .cr) Command.resetStaleInterrupt
  refine (yields_write h .dmrx _).bind ?_
  rintro _ d₄ rfl
  obtain ⟨hrx₄, -⟩ := hs₃.write_other hm (q := .dmrx) (by decide) (by decide) receiveOneWord
  refine Bus.yields_done ⟨hs₃.write _ _, by rw [hrx₁], ?_⟩
  rw [hrx₄, hrx₃, hrx₂, hrx₁]

/-- **A fetch** brings the characters at the front of the queue, and nothing only if the queue is
empty. -/
theorem yields_fetch (h : b.Addressable) (hm : TellsApart b.map) (hd : d.Serves b) :
    bus.Yields (Receive.fetch b) d fun r d' =>
      d'.Serves b ∧ brought r ++ d'.rx = d.rx ∧ (r = none → d.rx = []) := by
  refine (yields_clearOverrun h hm hd).bind fun _ d₁ ⟨hs₁, hrx₁⟩ => ?_
  rw [← hrx₁]
  refine (yields_read h .sr).bind fun v d₂ hread => ?_
  obtain ⟨hs₂, hrx₂, -, hready⟩ := hs₁.read_status hm hread
  rw [← hrx₂] at hready ⊢
  split
  · -- a full word
    rename_i hv
    refine (yields_read h .rf).bind fun w d₃ hread => ?_
    obtain ⟨hs₃, hrx₃, -, rfl⟩ := hs₂.read_data hm (.inr (hready.1 hv)) hread
    refine Bus.yields_done ⟨hs₃, ?_, fun h => absurd h (Option.some_ne_none _)⟩
    have hlist : brought (some (.full (FifoWord.ofBytes (d₂.rx.take 4)).raw)) = d₂.rx.take 4 :=
      take_lanes_ofBytes (Nat.le_refl 4) (hready.1 hv)
    exact (congrArg (· ++ d₃.rx) hlist).trans (by rw [hrx₃, List.take_append_drop])
  · rename_i hv
    have hshort : d₂.rx.length < 4 := Nat.lt_of_not_le fun hle => hv (hready.2 hle)
    refine (yields_read h .rxfs).bind fun count d₃ hread => ?_
    obtain ⟨hs₃, hrx₃, -, hcount⟩ := hs₂.read_receiveState hm hread
    rw [Nat.mod_eq_of_lt hshort, ← hrx₃] at hcount
    rw [← hrx₃] at hshort ⊢
    dsimp only
    split
    · -- nothing
      rename_i hzero
      rw [hzero] at hcount
      exact Bus.yields_done ⟨hs₃, rfl, fun _ => List.length_eq_zero_iff.1 hcount.symm⟩
    · -- the packing buffer, with the characters that its count has shown
      refine (yields_forceOut h hm hs₃).bind fun w d₄ ⟨hs₄, hw, hrx₄⟩ => ?_
      have hmin : (UInt8.ofNat (min (ReceiveState.bufferCount count).toNat
          FifoWord.laneCount)).toNat = d₃.rx.length := by
        rw [hcount, FifoWord.laneCount, UInt8.toNat_ofNat']
        omega
      refine Bus.yields_done ⟨hs₄, ?_, fun h => absurd h (Option.some_ne_none _)⟩
      rw [hrx₄, List.drop_of_length_le (Nat.le_of_lt hshort), List.append_nil, brought,
        Received.toList, hmin, hw, take_lanes_ofBytes (Nat.le_of_lt hshort) (Nat.le_refl _)]
      exact List.take_length

end Sim.Bench

/-! ### One character -/

/-- The next character of a queue, or that there is none, and the queue without it. -/
def handFrom : List UInt8 → Except IoError UInt8 × List UInt8
  | [] => (.error .rxNotReady, [])
  | byte :: rest => (.ok byte, rest)

namespace Session

variable {b : Block} {port : PortId} {x : Session Bench slots} {fuel : Nat}

/-- The characters that can be read from a port: those in its cache, and those that wait in the
block. -/
def available (port : PortId) (x : Session Bench slots) : List UInt8 :=
  (x.driver.cacheOf port).toList ++ x.bus.rx

/-- A port of a session can be read: it is a bench block that lies in the address space, with a
cache that holds no more than a word. -/
structure Readable (x : Session Bench slots) (port : PortId) (b : Block) : Prop
    extends HasPort x port b where
  serves : x.bus.Serves b
  cache : (x.driver.cacheOf port).remaining ≤ 4
  layout : Bench.TellsApart b.map
  reach : b.Addressable

namespace Readable

/-- What a read leaves of a readable port. -/
theorem leaves (hx : x.Readable port b) {cache : RxCache} (hcache : cache.remaining ≤ 4)
    {d : Bench} (hd : d.Serves b) :
    (⟨x.driver.withCache port cache, d⟩ : Session Bench slots).Readable port b ∧
      available port ⟨x.driver.withCache port cache, d⟩ = cache.toList ++ d.rx := by
  have hsame : (x.driver.withCache port cache).cacheOf port = cache :=
    Driver.cacheOf_withCache (Driver.index_lt_of_resolve hx.resolve) cache
  refine ⟨⟨⟨hx.resolve, hx.registers⟩, hd, ?_, hx.layout, hx.reach⟩, ?_⟩
  · rw [hsame]
    exact hcache
  · rw [available, hsame]

/-- Taking a character from a cache that has one. -/
theorem yields_takeFrom (hx : x.Readable port b) {cache : RxCache} (hne : cache.remaining ≠ 0)
    (hcache : cache.remaining ≤ 4) {d : Bench} (hd : d.Serves b) :
    Bench.bus.Yields (x.driver.takeFrom port.index cache) d fun r d' =>
      (⟨r.2, d'⟩ : Session Bench slots).Readable port b ∧
        (r.1, available port ⟨r.2, d'⟩) = handFrom (cache.toList ++ d.rx) := by
  obtain ⟨byte, rest, hpop⟩ := RxCache.exists_pop? hne
  obtain ⟨hreadable, havailable⟩ := hx.leaves (RxCache.remaining_of_pop? hpop hcache) hd
  rw [Driver.takeFrom_of_pop? (Driver.index_lt_of_resolve hx.resolve) hpop]
  refine Bus.yields_done ⟨hreadable, ?_⟩
  rw [havailable, RxCache.toList_of_pop? hpop hcache]
  rfl

/-- **A read that does not wait** takes the next character, if there is one. -/
theorem yields_getChar (hx : x.Readable port b) (fuel : Nat) :
    Bench.bus.Yields (x.driver.getChar fuel port false) x.bus fun r d' =>
      (⟨r.2, d'⟩ : Session Bench slots).Readable port b ∧
        (r.1, available port ⟨r.2, d'⟩) = handFrom (x.available port) := by
  rw [Driver.getChar_of_resolve hx.resolve, hx.block_eq]
  cases hempty : (x.driver.cacheOf port).isEmpty with
  | false =>
    rw [if_neg Bool.false_ne_true]
    exact hx.yields_takeFrom (RxCache.remaining_ne_zero hempty) hx.cache hx.serves
  | true =>
    have hnone : (x.driver.cacheOf port).toList = [] := RxCache.toList_of_isEmpty hempty
    rw [if_pos rfl, available, hnone, List.nil_append]
    obtain ⟨t, r, d, hfetch, hd, hlist, hnothing⟩ :=
      Bench.yields_fetch hx.reach hx.layout hx.serves
    have hfetches := Receive.fetches_of_completes hfetch
    have hword : Bench.bus.Yields (Driver.fetchWord fuel false b) x.bus fun r' d' =>
        r' = r ∧ d' = d := ⟨t, r, d, hfetch, rfl, rfl⟩
    refine hword.bind ?_
    rintro r d ⟨rfl, rfl⟩
    cases r with
    | none =>
      have hrx := hnothing rfl
      obtain ⟨hreadable, havailable⟩ := hx.leaves hx.cache hd
      rw [Driver.withCache_cacheOf] at hreadable havailable
      refine Bus.yields_done ⟨hreadable, ?_⟩
      have hleft : d.rx = x.bus.rx := hlist
      rw [havailable, hnone, hleft, hrx]
      rfl
    | some received =>
      have hne : (RxCache.ofReceived received).remaining ≠ 0 := fun h0 =>
        Nat.ne_of_gt hfetches.length_pos (congrArg UInt8.toNat h0)
      rw [← hlist]
      exact hx.yields_takeFrom hne (UInt8.le_iff_toNat_le.2 hfetches.length_le) hd

/-- A read that waits does the same where there is a character. -/
theorem yields_getChar_waiting (hx : x.Readable port b) {byte : UInt8} {rest : List UInt8}
    (havailable : x.available port = byte :: rest) (fuel : Nat) :
    Bench.bus.Yields (x.driver.getChar fuel port true) x.bus fun r d' =>
      (⟨r.2, d'⟩ : Session Bench slots).Readable port b ∧ r.1 = .ok byte ∧
        available port ⟨r.2, d'⟩ = rest := by
  obtain ⟨t, ⟨r, d⟩, s', hrun, hreadable, hhand⟩ := hx.yields_getChar fuel
  rw [havailable] at hhand
  obtain ⟨rfl, hrest⟩ := Prod.mk.inj hhand
  exact ⟨t, _, s', Driver.completes_getChar_waiting hx.resolve hrun fuel, hreadable, rfl, hrest⟩

/-! ### Several characters -/

theorem yields_takeReady (hx : x.Readable port b) (room : Nat) :
    Bench.bus.Yields (x.driver.takeReady fuel port room) x.bus fun r d' =>
      (⟨r.2, d'⟩ : Session Bench slots).Readable port b ∧
        r.1 = ⟨(x.available port).take room, .ok ()⟩ ∧
        available port ⟨r.2, d'⟩ = (x.available port).drop room := by
  induction room generalizing x with
  | zero => exact Bus.yields_done ⟨hx, rfl, rfl⟩
  | succ room ih =>
    refine (hx.yields_getChar fuel).bind fun ⟨r, d⟩ s₁ ⟨hx₁, hhand⟩ => ?_
    cases hqueue : x.available port with
    | nil =>
      rw [hqueue] at hhand
      obtain ⟨rfl, hnone⟩ := Prod.mk.inj hhand
      exact Bus.yields_done ⟨hx₁, rfl, hnone⟩
    | cons byte rest =>
      rw [hqueue] at hhand
      obtain ⟨rfl, hrest⟩ := Prod.mk.inj hhand
      refine (ih hx₁).bind fun ⟨filled, d₂⟩ s₂ ⟨hx₂, hfilled, hleft⟩ => ?_
      rw [hrest] at hfilled hleft
      obtain rfl := hfilled
      exact Bus.yields_done ⟨hx₂, rfl, hleft⟩

/-- **A read** of a port that has characters, or into a buffer without room, takes as many as there
are and as fit into the buffer. -/
theorem yields_readBytes (hx : x.Readable port b) {room : Nat}
    (hready : room = 0 ∨ x.available port ≠ []) :
    Bench.bus.Yields (x.driver.readBytes fuel port room) x.bus fun r d' =>
      (⟨r.2, d'⟩ : Session Bench slots).Readable port b ∧
        r.1 = ⟨(x.available port).take room, .ok ((x.available port).take room).length⟩ ∧
        available port ⟨r.2, d'⟩ = (x.available port).drop room := by
  cases room with
  | zero => exact Bus.yields_done ⟨hx, rfl, rfl⟩
  | succ room =>
    obtain ⟨byte, rest, hqueue⟩ :=
      List.exists_cons_of_ne_nil (hready.resolve_left (Nat.succ_ne_zero room))
    rw [hqueue]
    refine (hx.yields_getChar_waiting hqueue fuel).bind ?_
    rintro ⟨_, d⟩ s₁ ⟨hx₁, rfl, hrest⟩
    refine (hx₁.yields_takeReady room).bind fun ⟨filled, d₂⟩ s₂ ⟨hx₂, hfilled, hleft⟩ => ?_
    rw [hrest] at hfilled hleft
    obtain rfl := hfilled
    exact Bus.yields_done ⟨hx₂, rfl, hleft⟩

/-- **Filling a buffer** takes one read where there are enough characters. -/
theorem yields_readExact (hx : x.Readable port b) {room : Nat}
    (hready : room ≤ (x.available port).length) :
    Bench.bus.Yields (x.driver.readExact fuel port room) x.bus fun r d' =>
      (⟨r.2, d'⟩ : Session Bench slots).Readable port b ∧
        r.1 = ⟨(x.available port).take room, .ok ()⟩ ∧
        available port ⟨r.2, d'⟩ = (x.available port).drop room := by
  cases room with
  | zero => exact Bus.yields_done ⟨hx, rfl, rfl⟩
  | succ room =>
    have hne : x.available port ≠ [] := List.ne_nil_of_length_pos (Nat.lt_of_lt_of_le
      (Nat.succ_pos room) hready)
    have hlength : ((x.available port).take (room + 1)).length = room + 1 :=
      List.length_take_of_le hready
    have hend : ∀ d : Driver slots, d.fillFrom fuel port room 0 = .done (⟨[], .ok ()⟩, d) := by
      intro d
      cases room <;> rfl
    refine (hx.yields_readBytes (.inr hne)).bind fun ⟨filled, d⟩ s₁ ⟨hx₁, hfilled, hleft⟩ => ?_
    rw [hlength] at hfilled
    obtain rfl := hfilled
    change Bench.bus.Yields ((d.fillFrom fuel port room (room + 1 - (room + 1))).bind fun r =>
      .done (Driver.Filled.mk ((x.available port).take (room + 1) ++ r.1.bytes) r.1.result, r.2))
        s₁ _
    rw [Nat.sub_self, hend]
    exact Bus.yields_done ⟨hx₁, by rw [List.append_nil], hleft⟩

end Readable

end Session

/-! ### Calls -/

/-- What a call that reads a port answers where these characters are available, and what it leaves
of them; nothing if it would have to wait for more. -/
def Call.serve? : Call → List UInt8 → Option (Reply × List UInt8)
  | .getChar _ false, queue => some (.byte (handFrom queue).1, (handFrom queue).2)
  | .getChar _ true, byte :: rest => some (.byte (.ok byte), rest)
  | .readBytes _ room, queue =>
    if room = 0 ∨ queue ≠ [] then
      some (.buffer (queue.take room) (.ok (queue.take room).length), queue.drop room)
    else none
  | .readExact _ room, queue =>
    if room ≤ queue.length then some (.filled (queue.take room) (.ok ()), queue.drop room)
    else none
  | _, _ => none

/-- What some calls answer, one after the other. -/
def Call.serveAll? : List Call → List UInt8 → Option (List Reply × List UInt8)
  | [], queue => some ([], queue)
  | c :: rest, queue =>
    (c.serve? queue).bind fun r => (serveAll? rest r.2).map fun rs => (r.1 :: rs.1, rs.2)

/-- A call whose program completes has been performed. -/
theorem Bus.Yields.perform {bus : Bus σ} {c : Call} {fuel : Nat} {x : Session σ slots}
    {Q : Reply × Driver slots → σ → Prop}
    (h : bus.Yields (c.program fuel x.driver) x.bus Q) :
    ∃ t reply x', Session.perform bus fuel c x = ⟨.ok reply x', t⟩ ∧
      Q (reply, x'.driver) x'.bus := by
  obtain ⟨t, ⟨reply, d⟩, s, hrun, hQ⟩ := h
  exact ⟨t, reply, ⟨d, s⟩, Session.perform_eq_ok_iff.2 hrun, hQ⟩

namespace Session.Readable

variable {b : Block} {port : PortId} {x : Session Bench slots} {c : Call} {reply : Reply}
  {rest : List UInt8}

/-- **A call** that reads a readable port answers as the queue does. -/
theorem perform_serve (hx : x.Readable port b) (hc : c.port? = some port)
    (h : c.serve? (x.available port) = some (reply, rest)) (fuel : Nat) :
    ∃ t x', perform Bench.bus fuel c x = ⟨.ok reply x', t⟩ ∧ x'.Readable port b ∧
      x'.available port = rest := by
  have hyields : Bench.bus.Yields (c.program fuel x.driver) x.bus fun r d' =>
      (⟨r.2, d'⟩ : Session Bench slots).Readable port b ∧ r.1 = reply ∧
        available port ⟨r.2, d'⟩ = rest := by
    cases c with
    | getChar p wait =>
      obtain rfl := Option.some.inj hc
      cases wait with
      | false =>
        obtain ⟨rfl, rfl⟩ := Prod.mk.inj (Option.some.inj h)
        refine (hx.yields_getChar fuel).bind fun ⟨r, d⟩ s₁ ⟨hx₁, hhand⟩ => ?_
        obtain ⟨hr, hrest⟩ := Prod.mk.inj hhand
        exact Bus.yields_done ⟨hx₁, congrArg Reply.byte hr, hrest⟩
      | true =>
        cases hqueue : x.available p with
        | nil =>
          rw [hqueue] at h
          cases h
        | cons byte queue =>
          rw [hqueue] at h
          obtain ⟨rfl, rfl⟩ := Prod.mk.inj (Option.some.inj h)
          refine (hx.yields_getChar_waiting hqueue fuel).bind fun ⟨r, d⟩ s₁ ⟨hx₁, hr, hrest⟩ => ?_
          exact Bus.yields_done ⟨hx₁, congrArg Reply.byte hr, hrest⟩
    | readBytes p room =>
      obtain rfl := Option.some.inj hc
      rw [Call.serve?] at h
      split at h
      · rename_i hready
        obtain ⟨rfl, rfl⟩ := Prod.mk.inj (Option.some.inj h)
        refine (hx.yields_readBytes hready).bind fun ⟨filled, d⟩ s₁ ⟨hx₁, hfilled, hrest⟩ => ?_
        obtain rfl := hfilled
        exact Bus.yields_done ⟨hx₁, rfl, hrest⟩
      · cases h
    | readExact p room =>
      obtain rfl := Option.some.inj hc
      rw [Call.serve?] at h
      split at h
      · rename_i hready
        obtain ⟨rfl, rfl⟩ := Prod.mk.inj (Option.some.inj h)
        refine (hx.yields_readExact hready).bind fun ⟨filled, d⟩ s₁ ⟨hx₁, hfilled, hrest⟩ => ?_
        obtain rfl := hfilled
        exact Bus.yields_done ⟨hx₁, rfl, hrest⟩
      · cases h
    | _ => cases h
  obtain ⟨t, _, x', hperform, hx', rfl, hrest⟩ := hyields.perform
  exact ⟨t, x', hperform, hx', hrest⟩

/-- **Any number of calls** that read a readable port answer as the queue does. -/
theorem replay_serve (operate : κ → Bench → Option Bench) {calls : List Call}
    {replies : List Reply} (hx : x.Readable port b) (hcalls : ∀ c ∈ calls, c.port? = some port)
    (h : Call.serveAll? calls (x.available port) = some (replies, rest)) (fuel : Nat) :
    ∃ entries x', replay Bench.bus operate (calls.map (Move.call fuel)) x = some (entries, x') ∧
      entries.filterMap Entry.reply? = replies ∧ x'.Readable port b ∧
      x'.available port = rest := by
  induction calls generalizing x replies with
  | nil =>
    obtain ⟨rfl, rfl⟩ := Prod.mk.inj (Option.some.inj h)
    exact ⟨[], x, rfl, rfl, hx, rfl⟩
  | cons c calls ih =>
    obtain ⟨hc, hrest⟩ := List.forall_mem_cons.1 hcalls
    obtain ⟨⟨reply, queue⟩, hfirst, hlater⟩ := Option.bind_eq_some_iff.1 h
    obtain ⟨⟨later, queue'⟩, hserved, heq⟩ := Option.map_eq_some_iff.1 hlater
    obtain ⟨rfl, rfl⟩ := Prod.mk.inj heq
    obtain ⟨t, x₁, hperform, hx₁, rfl⟩ := hx.perform_serve hc hfirst fuel
    obtain ⟨entries, x', hreplay, rfl, hx', hleft⟩ := ih hx₁ hrest hserved
    refine ⟨.call x.driver c reply t :: entries, x', ?_, rfl, hx', hleft⟩
    rw [List.map_cons, replay, hperform]
    dsimp only
    rw [hreplay]
    rfl

end Session.Readable

/-! ### Runs of the queue -/

namespace Call

variable {port : PortId} {queue : List UInt8}

/-- One character after the other, and then the answer that there is none. -/
theorem serveAll?_getChar (port : PortId) (n : Nat) (queue : List UInt8) :
    serveAll? (List.replicate n (.getChar port false)) queue =
      some ((queue.take n).map (fun byte => .byte (.ok byte)) ++
        List.replicate (n - queue.length) (.byte (.error .rxNotReady)), queue.drop n) := by
  induction n generalizing queue with
  | zero => simp [serveAll?]
  | succ n ih =>
    rw [List.replicate_succ, serveAll?]
    cases queue with
    | nil => simp [serve?, handFrom, ih, List.replicate_succ]
    | cons byte rest => simp [serve?, handFrom, ih]

/-- A read of one of the two kinds, up to a number of characters or just as many. -/
def reading (port : PortId) : Bool × Nat → Call
  | (false, room) => .readBytes port room
  | (true, room) => .readExact port room

/-- The answer of such a read that has filled its buffer. -/
def filledBy : Bool × Nat → List UInt8 → Reply
  | (false, _), piece => .buffer piece (.ok piece.length)
  | (true, _), piece => .filled piece (.ok ())

/-- Reads that do not ask for more than there is fill their buffers, each with the piece that
follows. -/
theorem serveAll?_reading (port : PortId) {reads : List (Bool × Nat)}
    (h : (reads.map (·.2)).sum ≤ queue.length) :
    serveAll? (reads.map (reading port)) queue =
      some (List.zipWith filledBy reads ((reads.map (·.2)).splitLengths queue),
        queue.drop (reads.map (·.2)).sum) := by
  induction reads generalizing queue with
  | nil => rfl
  | cons read reads ih =>
    obtain ⟨fills, room⟩ := read
    simp only [List.map_cons, List.sum_cons] at h ⊢
    have hserve : serve? (reading port (fills, room)) queue =
        some (filledBy (fills, room) (queue.take room), queue.drop room) := by
      cases fills with
      | false =>
        refine if_pos ?_
        rcases Nat.eq_zero_or_pos room with h0 | hpos
        · exact .inl h0
        · exact .inr (List.ne_nil_of_length_pos (by omega))
      | true => exact if_pos (by omega)
    have hroom : (reads.map (·.2)).sum ≤ (queue.drop room).length := by
      rw [List.length_drop]
      omega
    have hlater := ih hroom
    rw [serveAll?, hserve, Option.bind_some, hlater, Option.map_some, List.splitLengths_cons,
      List.zipWith_cons_cons, List.drop_drop]

theorem port?_reading (port : PortId) (read : Bool × Nat) :
    (reading port read).port? = some port := by
  obtain ⟨fills, room⟩ := read
  cases fills <;> rfl

end Call

/-! ### Reachable states -/

section Reachable

variable {bus : Bus σ} {operate : κ → σ → Option σ} {s : σ} {config : Config}
  {x : Session σ slots} {entries : List (Entry slots κ)} {block : Bench} {port : PortId}
  {queue : List UInt8}

/-- In both known layouts the data register lies highest. -/
theorem addressable_of_rf {b : Block} (hmap : b.map = .blsp ∨ b.map = .gsbi)
    (h : b.base.toNat + (b.map.offset .rf).toNat < 0x10000000000000000) : b.Addressable := by
  have hhighest : ∀ r, (b.map.offset r).toNat ≤ (b.map.offset .rf).toNat := by
    rcases hmap with hmap | hmap <;> rw [hmap] <;> intro r <;> cases r <;> decide
  intro r
  have hr := hhighest r
  rw [Block.address?, Address.plus?, if_pos (by omega)]
  rfl

/-- A port of a driver with any past can be read if all registers of its block have an address. -/
theorem readable_of_history (h : History bus operate ⟨.new config, s⟩ entries x)
    (hmap : block.map = .blsp ∨ block.map = .gsbi)
    (hregisters : x.driver.config.registers = block.map)
    (hport : x.driver.ports.resolve port = some block.base)
    (hfits : block.base.toNat + (block.map.offset .rf).toNat < 0x10000000000000000) :
    (⟨x.driver, block⟩ : Session Bench slots).Readable port ⟨block.base, block.map⟩ where
  resolve := hport
  registers := hregisters
  serves := ⟨rfl, rfl⟩
  cache := (reached_of_history (Driver.reached_new config) h).cacheOf port
  layout := Bench.tellsApart_of_known hmap
  reach := addressable_of_rf hmap hfits

/-- A buffer with some characters put at its front. -/
def putAtFront (bytes buffer : List UInt8) : List UInt8 := bytes ++ buffer.drop bytes.length

/-- **Reads return just what is available.** A driver may have any past, on any bus, and the bench
block at the base of one of its ports may be in any state; the registers of the block lie in the
address space. `queue` is what is available: the unread characters of the cache, and then those
that wait in the block. If none arrives meanwhile:

* a read takes as many characters as there are and as fit into its buffer, from the front of the
  queue, puts them at the front of the buffer and leaves the rest of both as it was;
* reads of one character that do not wait bring the queue character by character, and then tell
  that there is no more;
* any reads that together ask for no more than there is, up to a number of characters or for just
  as many, each fill their buffer with the piece of the queue that follows. -/
theorem read_available (h : History bus operate ⟨.new config, s⟩ entries x)
    (hmap : block.map = .blsp ∨ block.map = .gsbi)
    (hregisters : x.driver.config.registers = block.map)
    (hport : x.driver.ports.resolve port = some block.base)
    (hfits : block.base.toNat + (block.map.offset .rf).toNat < 0x10000000000000000)
    (hqueue : Session.available port ⟨x.driver, block⟩ = queue) :
    (queue ≠ [] → ∀ fuel (buffer : List UInt8), ∃ bytes x' t,
      Session.perform Bench.bus fuel (.readBytes port buffer.length) ⟨x.driver, block⟩ =
        ⟨.ok (.buffer bytes (.ok (min buffer.length queue.length))) x', t⟩ ∧
      (putAtFront bytes buffer).take (min buffer.length queue.length) =
        queue.take (min buffer.length queue.length) ∧
      (putAtFront bytes buffer).drop (min buffer.length queue.length) =
        buffer.drop (min buffer.length queue.length) ∧
      x'.available port = queue.drop (min buffer.length queue.length)) ∧
    (∀ fuel n, ∃ reads x',
      Session.replay Bench.bus Bench.control
        ((List.replicate n (.getChar port false)).map (Move.call fuel)) ⟨x.driver, block⟩ =
          some (reads, x') ∧
      reads.filterMap Entry.reply? =
        (queue.take n).map (fun byte => .byte (.ok byte)) ++
          List.replicate (n - queue.length) (.byte (.error .rxNotReady)) ∧
      x'.available port = queue.drop n) ∧
    ∀ fuel (rooms : List (Bool × Nat)), (rooms.map (·.2)).sum ≤ queue.length → ∃ reads x',
      Session.replay Bench.bus Bench.control
        ((rooms.map (Call.reading port)).map (Move.call fuel)) ⟨x.driver, block⟩ =
          some (reads, x') ∧
      reads.filterMap Entry.reply? =
        List.zipWith Call.filledBy rooms ((rooms.map (·.2)).splitLengths queue) ∧
      x'.available port = queue.drop (rooms.map (·.2)).sum := by
  have hx := readable_of_history h hmap hregisters hport hfits
  subst hqueue
  refine ⟨fun hne fuel buffer => ?_, fun fuel n => ?_, fun fuel rooms hrooms => ?_⟩
  · generalize hn : min buffer.length (Session.available port ⟨x.driver, block⟩).length = n
    have htake : (Session.available port ⟨x.driver, block⟩).take buffer.length =
        (Session.available port ⟨x.driver, block⟩).take n := by
      rw [← hn, List.take_eq_take_min]
    have hlength : ((Session.available port ⟨x.driver, block⟩).take n).length = n := by
      rw [← htake, List.length_take, hn]
    obtain ⟨t, x', hperform, -, hleft⟩ :=
      hx.perform_serve (c := .readBytes port buffer.length) rfl (if_pos (.inr hne)) fuel
    rw [htake, hlength] at hperform
    refine ⟨_, x', t, hperform, List.take_left' hlength, ?_, ?_⟩
    · rw [putAtFront, hlength, List.drop_left' hlength]
    · rw [hleft, ← hn, List.drop_eq_drop_min]
  · obtain ⟨reads, x', hreplay, hreplies, -, hleft⟩ := hx.replay_serve Bench.control
      (fun c hc => (List.eq_of_mem_replicate hc) ▸ rfl) (Call.serveAll?_getChar port n _) fuel
    exact ⟨reads, x', hreplay, hreplies, hleft⟩
  · have hcalls : ∀ c ∈ rooms.map (Call.reading port), c.port? = some port := by
      intro c hc
      obtain ⟨read, -, rfl⟩ := List.mem_map.1 hc
      exact Call.port?_reading port read
    obtain ⟨reads, x', hreplay, hreplies, -, hleft⟩ := hx.replay_serve Bench.control hcalls
      (Call.serveAll?_reading port hrooms) fuel
    exact ⟨reads, x', hreplay, hreplies, hleft⟩

/-- What of a session matters to its first port. -/
structure PortView where
  /-- The layouts that the driver and the block have. -/
  layouts : RegisterMap × RegisterMap
  /-- The base of the port and that of the block. -/
  bases : Option Address × Address
  /-- The unread characters, of the cache and of the block. -/
  unread : List UInt8 × List UInt8
  deriving DecidableEq

/-- The first port of a session. -/
def Session.firstPort (x : Session (Rig Bench) slots) : PortView where
  layouts := (x.driver.config.registers, x.bus.device.map)
  bases := (x.driver.ports.resolve ⟨0⟩, x.bus.device.base)
  unread := ((x.driver.cacheOf ⟨0⟩).toList, x.bus.device.rx)

/-- Six characters of which one has been read: three are left in the cache and two in the block, and
a read of four takes all of the cache and one from the block. -/
theorem read_available_mixed :
    ∃ (x : Session (Rig Bench) 1) (entries : List (Entry 1 Bench.Control)),
      History (Bench.hardware.rigged ⟨[], 100⟩) Bench.hardware.operate
        ⟨.new { Config.standard with registers := .gsbi, banner := none },
          .start (.new 0x1000 .gsbi)⟩ entries x ∧
      x.firstPort = ⟨(.gsbi, .gsbi), (some 0x1000, 0x1000), ([0x62, 0x63, 0x64], [0x65, 0x66])⟩ ∧
      ∃ bytes x' t, Session.perform Bench.bus 0 (.readBytes ⟨0⟩ 4) ⟨x.driver, x.bus.device⟩ =
          ⟨.ok (.buffer bytes (.ok 4)) x', t⟩ ∧
        (putAtFront bytes [0, 0, 0, 0]).take 4 = [0x62, 0x63, 0x64, 0x65] ∧
        x'.available ⟨0⟩ = [0x66] := by
  let moves : List (Move Bench.Control) :=
    [.call 0 (.init .ready 1 none 0x1000),
      .control (.receive [0x61, 0x62, 0x63, 0x64, 0x65, 0x66]), .call 0 (.getChar ⟨0⟩ false)]
  have hrun : (Session.replay (Bench.hardware.rigged ⟨[], 100⟩) Bench.hardware.operate moves
      (⟨.new { Config.standard with registers := .gsbi, banner := none },
        .start (.new 0x1000 .gsbi)⟩ : Session (Rig Bench) 1)).map (·.2.firstPort) =
      some ⟨(.gsbi, .gsbi), (some 0x1000, 0x1000), ([0x62, 0x63, 0x64], [0x65, 0x66])⟩ := by
    decide +kernel
  obtain ⟨⟨entries, x⟩, hreplay, hview⟩ := Option.map_eq_some_iff.1 hrun
  obtain ⟨hlayouts, hbases, hunread⟩ := PortView.mk.inj hview
  obtain ⟨hregisters, hmap⟩ := Prod.mk.inj hlayouts
  obtain ⟨hport, hbase⟩ := Prod.mk.inj hbases
  obtain ⟨hcache, hrx⟩ := Prod.mk.inj hunread
  have hqueue : Session.available ⟨0⟩ ⟨x.driver, x.bus.device⟩ =
      [0x62, 0x63, 0x64, 0x65, 0x66] := by
    rw [Session.available, hcache, hrx]
    rfl
  obtain ⟨hread, -⟩ := read_available (history_of_replay hreplay).1
    (.inr hmap) (hregisters.trans hmap.symm) (hport.trans (congrArg some hbase.symm))
    (by rw [hbase, hmap]; decide) hqueue
  obtain ⟨bytes, x', t, hperform, hfront, -, hleft⟩ := hread (by decide) 0 [0, 0, 0, 0]
  exact ⟨x, entries, (history_of_replay hreplay).1, hview, bytes, x', t, hperform, hfront, hleft⟩

/-- The run has stopped the machine. -/
def Run.faults {α : Type} : Run σ α → Bool
  | ⟨.fault, _⟩ => true
  | _ => false

theorem Run.outcome_of_faults {α : Type} {r : Run σ α} (h : r.faults = true) :
    r.outcome = .fault := by
  unfold faults at h
  split at h
  · rfl
  · cases h

/-- A block so high that its data register has no address: bringing up a port has not come that far,
but the read of four characters that have arrived stops the machine. -/
theorem read_available_past_the_end :
    ∃ (x : Session (Rig Bench) 1) (entries : List (Entry 1 Bench.Control)),
      History (Bench.hardware.rigged ⟨[], 100⟩) Bench.hardware.operate
        ⟨.new { Config.standard with banner := none }, .start (.new 0xffffffffffffff00 .blsp)⟩
        entries x ∧
      x.firstPort = ⟨(.blsp, .blsp), (some 0xffffffffffffff00, 0xffffffffffffff00),
        ([], [0x61, 0x62, 0x63, 0x64])⟩ ∧
      (Session.perform Bench.bus 0 (.readBytes ⟨0⟩ 4) ⟨x.driver, x.bus.device⟩).outcome =
        .fault := by
  let moves : List (Move Bench.Control) :=
    [.call 0 (.init .ready 1 none 0xffffffffffffff00), .control (.receive [0x61, 0x62, 0x63, 0x64])]
  have hrun : (Session.replay (Bench.hardware.rigged ⟨[], 100⟩) Bench.hardware.operate moves
      (⟨.new { Config.standard with banner := none },
        .start (.new 0xffffffffffffff00 .blsp)⟩ : Session (Rig Bench) 1)).map
        (fun r => (r.2.firstPort,
          (Session.perform Bench.bus 0 (.readBytes ⟨0⟩ 4) ⟨r.2.driver, r.2.bus.device⟩).faults)) =
      some (⟨(.blsp, .blsp), (some 0xffffffffffffff00, 0xffffffffffffff00),
        ([], [0x61, 0x62, 0x63, 0x64])⟩, true) := by
    decide +kernel
  obtain ⟨⟨entries, x⟩, hreplay, hvalues⟩ := Option.map_eq_some_iff.1 hrun
  obtain ⟨hview, hfaults⟩ := Prod.mk.inj hvalues
  exact ⟨x, entries, (history_of_replay hreplay).1, hview, Run.outcome_of_faults hfaults⟩

end Reachable

end PolledUart
