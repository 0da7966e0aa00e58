import PolledUart.Proofs.ReceiveQueue
import Mathlib.Data.List.Basic

/-!
# Punctual arrivals

A forced fetch looks twice: it reads how many characters the packing buffer holds,
and later the word that has been pushed out of it. A character that arrives between
the two is in the word but not in the count, and is lost; and so are characters that
complete a word right before the count is read. `Trace.Punctual` says that a trace
meets no such arrival.

* `Keeps` — characters are at most lost, and none is lost under just one condition.
  It is closed under sequence (`Keeps.trans`).
* `keeps_of_fetches` — a fetch keeps all characters exactly if it is punctual.
-/

namespace PolledUart

open Sim

/-! ### Accounts of characters -/

/-- What is handed out and what is left are what was there before and what arrived, in order, but
for lost characters; and none is lost exactly if `P` holds. -/
structure Keeps (P : Prop) (before arrived handed after : List UInt8) : Prop where
  sublist : (handed ++ after).Sublist (before ++ arrived)
  eq_iff : handed ++ after = before ++ arrived ↔ P

namespace Keeps

variable {P Q : Prop} {x y z arrived arrived' handed handed' : List UInt8}

theorem of_eq (h : handed ++ y = x ++ arrived) : Keeps True x arrived handed y :=
  ⟨h ▸ List.Sublist.refl _, ⟨fun _ => trivial, fun _ => h⟩⟩

theorem congr (h : Keeps P x arrived handed y) (hPQ : P ↔ Q) : Keeps Q x arrived handed y :=
  ⟨h.sublist, h.eq_iff.trans hPQ⟩

/-- Some of the characters that are left are handed out. -/
theorem hand {bytes : List UInt8} (h : Keeps P x arrived handed (bytes ++ y)) :
    Keeps P x arrived (handed ++ bytes) y :=
  ⟨List.append_assoc .. ▸ h.sublist, List.append_assoc .. ▸ h.eq_iff⟩

/-- Two accounts, one after the other. -/
theorem trans (h : Keeps P x arrived handed y) (h' : Keeps Q y arrived' handed' z) :
    Keeps (P ∧ Q) x (arrived ++ arrived') (handed ++ handed') z := by
  have h₁ : (handed ++ (handed' ++ z)).Sublist (handed ++ (y ++ arrived')) :=
    h'.sublist.append_left handed
  have h₂ : (handed ++ y ++ arrived').Sublist (x ++ arrived ++ arrived') :=
    h.sublist.append_right arrived'
  have hsublist : (handed ++ handed' ++ z).Sublist (x ++ (arrived ++ arrived')) := by
    rw [List.append_assoc, ← List.append_assoc x]
    rw [← List.append_assoc handed y] at h₁
    exact h₁.trans h₂
  refine ⟨hsublist, fun heq => ?_, fun ⟨hP, hQ⟩ => ?_⟩
  · -- the lengths leave no room for a loss in either account
    have hlen := congrArg List.length heq
    have hle := h.sublist.length_le
    have hle' := h'.sublist.length_le
    simp only [List.length_append] at hlen hle hle'
    exact ⟨h.eq_iff.1 (h.sublist.eq_of_length (by simp only [List.length_append]; omega)),
      h'.eq_iff.1 (h'.sublist.eq_of_length (by simp only [List.length_append]; omega))⟩
  · rw [List.append_assoc, h'.eq_iff.2 hQ, ← List.append_assoc, h.eq_iff.2 hP, List.append_assoc]

end Keeps

/-! ### Punctual traces -/

namespace Trace

variable {b : Block} {arrivals : Nat → List UInt8} {n : Nat} {t u : List Event}

/-- No forced fetch of a trace is met by an arrival: right before the count is read no more
characters arrive than the count shows, so that they do not complete a word, and none arrives right
before the word is read. Before the trace there were `n` reads. -/
def Punctual (b : Block) (arrivals : Nat → List UInt8) (n : Nat) (t : List Event) : Prop :=
  ∀ before count w after,
    t = before ++ b.readEvent .rxfs count :: forceEvent b :: b.readEvent .rf w :: after →
      (arrivals (n + readCount before + 1)).length ≤ (ReceiveState.bufferCount count).toNat ∧
        arrivals (n + readCount before + 2) = []

theorem punctual_of_not_mem (h : forceEvent b ∉ t) : Punctual b arrivals n t := by
  rintro before count w after rfl
  exact absurd (by simp) h

/-- A trace neither begins nor ends in the middle of a forced fetch. -/
def Settled (b : Block) (t : List Event) : Prop :=
  t.head? ≠ some (forceEvent b) ∧ t.getLast? ≠ some (forceEvent b)

theorem settled_nil : Settled b [] := ⟨nofun, nofun⟩

theorem Settled.append (ht : Settled b t) (hu : Settled b u) : Settled b (t ++ u) := by
  obtain ⟨ht₁, ht₂⟩ := ht
  obtain ⟨hu₁, hu₂⟩ := hu
  constructor
  · rw [List.head?_append]
    cases h : t.head? with
    | none => simpa using hu₁
    | some e => simpa [h] using ht₁
  · rw [List.getLast?_append]
    cases h : u.getLast? with
    | none => simpa using ht₂
    | some e => simpa [h] using hu₂

/-- A forced fetch lies in one of two settled traces. -/
theorem punctual_append_iff (ht : Settled b t) (hu : Settled b u) :
    Punctual b arrivals n (t ++ u) ↔
      Punctual b arrivals n t ∧ Punctual b arrivals (n + readCount t) u := by
  constructor
  · intro h
    constructor
    · rintro before count w after rfl
      exact h before count w (after ++ u) (by simp)
    · rintro before count w after rfl
      have := h (t ++ before) count w after (by simp)
      rwa [readCount_append, ← Nat.add_assoc] at this
  · rintro ⟨h, h'⟩ before count w after heq
    have second : ∀ before, u = before ++ b.readEvent .rxfs count :: forceEvent b ::
        b.readEvent .rf w :: after → (arrivals (n + readCount (t ++ before) + 1)).length ≤
          (ReceiveState.bufferCount count).toNat ∧ arrivals (n + readCount (t ++ before) + 2) = [] := by
      intro before hbefore
      have := h' before count w after hbefore
      rwa [readCount_append, ← Nat.add_assoc]
    rcases List.append_eq_append_iff.1 heq with ⟨c, rfl, hc⟩ | ⟨c, rfl, hc⟩
    · exact second c hc
    · rcases c with _ | ⟨e₁, _ | ⟨e₂, _ | ⟨e₃, c⟩⟩⟩ <;>
        simp only [List.cons_append, List.nil_append, List.cons.injEq] at hc
      · simpa using second [] hc.symm
      · -- the second trace would begin with the command
        exact absurd (by rw [← hc.2]; rfl) hu.1
      · -- the first trace would end with the command
        exact absurd (by simp [← hc.2.1]) ht.2
      · obtain ⟨rfl, rfl, rfl, -⟩ := hc
        exact h before count w c rfl

end Trace

/-! ### Traces of a fetch -/

open Trace

section Fetching

variable {b : Block} {arrivals : Nat → List UInt8} {n : Nat} {t : List Event}
  {r : Option Received}

theorem Checks.readCount_eq (h : Checks b t) : readCount t = 1 := by
  cases h <;> rfl

theorem Checks.head?_append (h : Checks b t) (u : List Event) :
    (t ++ u).head? ≠ some (forceEvent b) := by
  cases h <;> simp [forceEvent, Block.readEvent, Block.writeEvent]

theorem Fetches.settled (h : Fetches b t r) : Settled b t := by
  cases h with
  | full hc _ =>
    exact ⟨hc.head?_append _, by simp [forceEvent, Block.readEvent, Block.writeEvent]⟩
  | nothing hc _ _ =>
    exact ⟨hc.head?_append _, by simp [forceEvent, Block.readEvent, Block.writeEvent]⟩
  | forced hc _ _ =>
    exact ⟨hc.head?_append _, by simpa [forcedOut] using rearm_ne_force b⟩

/-- A forced fetch is punctual if no character arrives that its count misses. -/
theorem punctual_forced_iff (hc : Checks b t) {v count w : UInt32} :
    Punctual b arrivals n (t ++ b.readEvent .sr v :: b.readEvent .rxfs count :: forcedOut b w) ↔
      (arrivals (n + 3)).length ≤ (ReceiveState.bufferCount count).toNat ∧
        arrivals (n + 4) = [] := by
  have hreads : readCount (t ++ [b.readEvent .sr v]) = 2 := by
    rw [readCount_append, hc.readCount_eq]
    rfl
  constructor
  · intro h
    have := h (t ++ [b.readEvent .sr v]) count w
      [b.writeEvent .cr Command.resetStaleInterrupt, b.writeEvent .dmrx receiveOneWord]
      (by rw [List.append_assoc]; rfl)
    rwa [hreads] at this
  · rintro h before count' w' after heq
    -- the command occurs once, so the two splits of the trace are the same
    have hbefore : forceEvent b ∉ t ++ [b.readEvent .sr v, b.readEvent .rxfs count] := fun hmem =>
      (List.mem_append.1 hmem).elim hc.force_not_mem
        (by simp [forceEvent, Block.readEvent, Block.writeEvent])
    have hafter : forceEvent b ∉ [b.readEvent .rf w,
        b.writeEvent .cr Command.resetStaleInterrupt, b.writeEvent .dmrx receiveOneWord] := by
      have hread : forceEvent b ≠ b.readEvent .rf w := by
        simp [forceEvent, Block.readEvent, Block.writeEvent]
      have hreset : forceEvent b ≠ b.writeEvent .cr Command.resetStaleInterrupt := by
        simp [forceEvent, Block.writeEvent, Command.forceStale, Command.resetStaleInterrupt]
      simp only [List.mem_cons, List.not_mem_nil, or_false, not_or]
      exact ⟨hread, hreset, (rearm_ne_force b).symm⟩
    have heq : (t ++ [b.readEvent .sr v, b.readEvent .rxfs count]) ++ forceEvent b ::
        [b.readEvent .rf w, b.writeEvent .cr Command.resetStaleInterrupt,
          b.writeEvent .dmrx receiveOneWord] =
        (before ++ [b.readEvent .rxfs count']) ++ forceEvent b :: b.readEvent .rf w' :: after := by
      rw [List.append_assoc, List.append_assoc]
      exact heq
    obtain ⟨hsplit, -, -⟩ := (List.append_cons_inj_of_notMem hbefore hafter).1 heq
    have hsplit : (t ++ [b.readEvent .sr v]) ++ [b.readEvent .rxfs count] =
        before ++ [b.readEvent .rxfs count'] := by
      rw [← hsplit, List.append_assoc]
      rfl
    obtain ⟨rfl, hcount⟩ := List.append_inj' hsplit rfl
    obtain rfl := (Event.read.inj (List.cons.inj hcount).1).2
    rwa [hreads]

/-! ### A fetch on a bench block -/

/-- The characters that arrive before some reads, of which the first is the one after the n-th. -/
def arrivedDuring (arrivals : Nat → List UInt8) (n reads : Nat) : List UInt8 :=
  (List.range' (n + 1) reads).flatMap arrivals

theorem arrivedDuring_add (arrivals : Nat → List UInt8) (n j k : Nat) :
    arrivedDuring arrivals n (j + k) =
      arrivedDuring arrivals n j ++ arrivedDuring arrivals (n + j) k := by
  unfold arrivedDuring
  rw [← List.flatMap_append, ← List.range'_append, Nat.one_mul, Nat.add_right_comm]

/-- The characters of what a fetch has brought. -/
def brought : Option Received → List UInt8
  | none => []
  | some r => r.toList

/-- Some of the lanes of a word of waiting characters are the first of these. -/
theorem take_lanes_ofBytes {queue : List UInt8} {k : Nat} (hk : k ≤ 4) (hlen : k ≤ queue.length) :
    (FifoWord.ofBytes (queue.take 4)).lanes.take k = queue.take k := by
  have hle : (queue.take 4).length ≤ 4 := List.length_take_le 4 queue
  have hk' : k ≤ (queue.take 4).length := by
    rw [List.length_take]
    omega
  rw [FifoWord.lanes_ofBytes hle, List.take_append_of_le_length hk', List.take_take,
    Nat.min_eq_left hk]

variable {schedule : Schedule Bench.Control} {x x' : Rig Bench}

open Bench in
theorem intake_of_checks (hs : x.device.Serves b) (hm : TellsApart b.map) (hc : Checks b t)
    (h : Bus.Path (hardware.rigged schedule).Step x t x') :
    x'.device.Serves b ∧ intake x' = (intake x).next (arrivalsAt schedule (x.reads + 1)) := by
  cases hc with
  | clear _ =>
    obtain ⟨x₁, hstep, hnil⟩ := Bus.path_cons_iff.1 h
    obtain rfl := Bus.path_nil_iff.1 hnil
    obtain ⟨hs₁, he, -⟩ := step_status hs hm hstep
    exact ⟨hs₁, he⟩
  | overrun _ =>
    obtain ⟨x₁, hstep, h₁⟩ := Bus.path_cons_iff.1 h
    obtain ⟨hs₁, he₁, -⟩ := step_status hs hm hstep
    obtain ⟨x₂, hclear, hnil⟩ := Bus.path_cons_iff.1 h₁
    obtain rfl := Bus.path_nil_iff.1 hnil
    obtain ⟨hs₂, he₂⟩ := step_command hs₁ hm (by decide) hclear
    refine ⟨hs₂, he₂.trans (Eq.trans ?_ he₁)⟩
    simp [Command.resetErrorStatus, Command.forceStale]

/-- The block is the one the driver uses, and its packing buffer has not been pushed out. -/
structure Ready (b : Block) (x : Rig Bench) : Prop where
  serves : x.device.Serves b
  settled : x.device.stale = false

open Bench in
/-- How a fetch begins: it looks for an overrun, and then at the status. -/
theorem intake_of_status {v : UInt32} {u : List Event} (hx : Ready b x) (hm : TellsApart b.map)
    (hc : Checks b t)
    (h : Bus.Path (hardware.rigged schedule).Step x (t ++ b.readEvent .sr v :: u) x') :
    ∃ y, y.device.Serves b ∧
      intake y = ⟨x.reads + 2,
        x.device.rx ++ arrivedDuring (arrivalsAt schedule) x.reads 2, false⟩ ∧
      (v &&& Status.rxReady ≠ 0 ↔ 4 ≤ (intake y).queue.length) ∧
      Bus.Path (hardware.rigged schedule).Step y u x' := by
  obtain ⟨x₁, hchecks, h₁⟩ := Bus.path_append_iff.1 h
  obtain ⟨hs₁, he₁⟩ := intake_of_checks hx.serves hm hc hchecks
  obtain ⟨x₂, hstatus, h₂⟩ := Bus.path_cons_iff.1 h₁
  obtain ⟨hs₂, he₂, hv⟩ := step_status hs₁ hm hstatus
  refine ⟨x₂, hs₂, ?_, hv, h₂⟩
  have hreads : x₁.reads = x.reads + 1 := congrArg Intake.reads he₁
  rw [he₂, he₁, hreads]
  simp [intake, Intake.next, hx.settled, arrivedDuring, List.range']

open Bench in
theorem keeps_of_full {v w : UInt32} (hx : Ready b x) (hm : TellsApart b.map) (hc : Checks b t)
    (hv : v &&& Status.rxReady ≠ 0)
    (h : Bus.Path (hardware.rigged schedule).Step x
      (t ++ [b.readEvent .sr v, b.readEvent .rf w]) x') :
    Ready b x' ∧ Keeps True x.device.rx (arrivedDuring (arrivalsAt schedule) x.reads 3) []
      ((Received.full w).toList ++ x'.device.rx) := by
  obtain ⟨y, hs, he, hlen, h₁⟩ := intake_of_status hx hm hc h
  have hlen := hlen.1 hv
  obtain ⟨z, hdata, hnil⟩ := Bus.path_cons_iff.1 h₁
  obtain rfl := Bus.path_nil_iff.1 hnil
  have hqueue : ((intake y).next (arrivalsAt schedule (y.reads + 1))).queue =
      x.device.rx ++ arrivedDuring (arrivalsAt schedule) x.reads 3 := by
    have hreads : y.reads = x.reads + 2 := congrArg Intake.reads he
    rw [he, hreads]
    simp [Intake.next, arrivedDuring, List.range']
  have hge : 4 ≤ ((intake y).next (arrivalsAt schedule (y.reads + 1))).queue.length := by
    simp only [Intake.next, List.length_append]
    omega
  obtain ⟨hs', he', hw⟩ := step_data hs hm (.inr hge) hdata
  rw [hqueue] at he' hw hge
  refine ⟨⟨hs', congrArg Intake.stale he'⟩, .of_eq ?_⟩
  have hrx : x'.device.rx = _ := congrArg Intake.queue he'
  have hlist : (Received.full w).toList =
      (x.device.rx ++ arrivedDuring (arrivalsAt schedule) x.reads 3).take 4 := by
    rw [hw]
    exact take_lanes_ofBytes (Nat.le_refl 4) hge
  rw [hrx, hlist, List.nil_append, List.take_append_drop]

open Bench in
theorem keeps_of_nothing {v count : UInt32} (hx : Ready b x) (hm : TellsApart b.map)
    (hc : Checks b t)
    (h : Bus.Path (hardware.rigged schedule).Step x
      (t ++ [b.readEvent .sr v, b.readEvent .rxfs count]) x') :
    Ready b x' ∧ Keeps True x.device.rx (arrivedDuring (arrivalsAt schedule) x.reads 3) []
      x'.device.rx := by
  obtain ⟨y, hs, he, -, h₁⟩ := intake_of_status hx hm hc h
  obtain ⟨z, hstate, hnil⟩ := Bus.path_cons_iff.1 h₁
  obtain rfl := Bus.path_nil_iff.1 hnil
  obtain ⟨hs', he', -⟩ := step_receiveState hs hm hstate
  have hreads : y.reads = x.reads + 2 := congrArg Intake.reads he
  rw [he, hreads] at he'
  have hrx : x'.device.rx = _ := congrArg Intake.queue he'
  refine ⟨⟨hs', congrArg Intake.stale he'⟩, .of_eq ?_⟩
  rw [hrx]
  simp [Intake.next, arrivedDuring, List.range']

/-- A cut between two places of a queue loses what lies between them. -/
theorem keeps_of_cut {queue arrived : List UInt8} {m k : Nat} (h : m < k) :
    Keeps ((queue ++ arrived).length ≤ m) queue arrived []
      ((queue ++ arrived).take m ++ (queue ++ arrived).drop k) := by
  generalize hall : queue ++ arrived = all
  refine ⟨?_, fun heq => ?_, fun hle => ?_⟩
  · have hlater := (List.drop_sublist_drop_left all (Nat.le_of_lt h)).append_left (all.take m)
    rw [List.take_append_drop] at hlater
    rwa [hall]
  · have hlen := congrArg List.length heq
    simp only [List.nil_append, List.length_append, List.length_take, List.length_drop, hall] at hlen
    omega
  · rw [List.nil_append, hall, List.take_of_length_le hle,
      List.drop_of_length_le (Nat.le_of_lt (Nat.lt_of_le_of_lt hle h)), List.append_nil]

open Bench in
/-- What a forced fetch does once it has looked at the status: the count is of the characters that
wait when it is read, and the word is of those that wait when that is read. -/
theorem intake_of_forced {y : Rig Bench} {count w : UInt32} (hs : y.device.Serves b)
    (hm : TellsApart b.map)
    (h : Bus.Path (hardware.rigged schedule).Step y (b.readEvent .rxfs count :: forcedOut b w) x') :
    Ready b x' ∧
      (ReceiveState.bufferCount count).toNat =
        (y.device.rx ++ arrivalsAt schedule (y.reads + 1)).length % 4 ∧
      w = (FifoWord.ofBytes
        ((y.device.rx ++ arrivedDuring (arrivalsAt schedule) y.reads 2).take 4)).raw ∧
      x'.device.rx = (y.device.rx ++ arrivedDuring (arrivalsAt schedule) y.reads 2).drop 4 := by
  obtain ⟨y₁, hstate, h₁⟩ := Bus.path_cons_iff.1 h
  obtain ⟨y₂, hforce, h₂⟩ := Bus.path_cons_iff.1 h₁
  obtain ⟨y₃, hdata, h₃⟩ := Bus.path_cons_iff.1 h₂
  obtain ⟨y₄, hreset, h₄⟩ := Bus.path_cons_iff.1 h₃
  obtain ⟨z, hrearm, hnil⟩ := Bus.path_cons_iff.1 h₄
  obtain rfl := Bus.path_nil_iff.1 hnil
  obtain ⟨hs₁, he₁, hcount⟩ := step_receiveState hs hm hstate
  obtain ⟨hs₂, he₂⟩ := step_command hs₁ hm (by decide) hforce
  have hstale : (intake y₂).stale = true := by
    rw [he₂]
    simp
  obtain ⟨hs₃, he₃, hw⟩ := step_data hs₂ hm (.inl hstale) hdata
  obtain ⟨hs₄, he₄⟩ := step_command hs₃ hm (by decide) hreset
  obtain ⟨hs₅, he₅⟩ := step_rearm hs₄ hm hrearm
  have hreads : y₂.reads = y.reads + 1 := by
    have hsame : y₂.reads = y₁.reads := congrArg Intake.reads he₂
    exact hsame.trans (congrArg Intake.reads he₁)
  have hqueue : ((intake y₂).next (arrivalsAt schedule (y₂.reads + 1))).queue =
      y.device.rx ++ arrivedDuring (arrivalsAt schedule) y.reads 2 := by
    rw [he₂, he₁, hreads]
    simp [intake, Intake.next, arrivedDuring, List.range']
  rw [hqueue] at he₃ hw
  refine ⟨⟨hs₅, ?_⟩, by rw [hcount, he₁]; rfl, hw, ?_⟩
  · change (intake x').stale = false
    rw [he₅, he₄, he₃]
    exact (by decide : decide (Command.resetStaleInterrupt = Command.forceStale) = false)
  · change (intake x').queue = _
    rw [he₅, he₄, he₃]

open Bench in
theorem keeps_of_forced {v count w : UInt32} (hx : Ready b x) (hm : TellsApart b.map)
    (hc : Checks b t) (hv : v &&& Status.rxReady = 0)
    (h : Bus.Path (hardware.rigged schedule).Step x
      (t ++ b.readEvent .sr v :: b.readEvent .rxfs count :: forcedOut b w) x') :
    Ready b x' ∧
      Keeps ((arrivalsAt schedule (x.reads + 3)).length ≤ (ReceiveState.bufferCount count).toNat ∧
          arrivalsAt schedule (x.reads + 4) = [])
        x.device.rx (arrivedDuring (arrivalsAt schedule) x.reads 4) []
        ((Received.partly count w).toList ++ x'.device.rx) := by
  obtain ⟨y, hs, he, hlen, h₁⟩ := intake_of_status hx hm hc h
  have hlt : y.device.rx.length < 4 := Nat.lt_of_not_le fun hle => hlen.2 hle hv
  obtain ⟨hx', hcount, hw, hrx⟩ := intake_of_forced hs hm h₁
  have hreads : y.reads = x.reads + 2 := congrArg Intake.reads he
  have hqueue : y.device.rx = x.device.rx ++ arrivedDuring (arrivalsAt schedule) x.reads 2 :=
    congrArg Intake.queue he
  -- everything that has arrived before the word is read
  have hall : y.device.rx ++ arrivedDuring (arrivalsAt schedule) y.reads 2 =
      x.device.rx ++ arrivedDuring (arrivalsAt schedule) x.reads 4 := by
    rw [hqueue, hreads, List.append_assoc, ← arrivedDuring_add]
  have hlate : (y.device.rx ++ arrivedDuring (arrivalsAt schedule) y.reads 2).length =
      y.device.rx.length + (arrivalsAt schedule (x.reads + 3)).length +
        (arrivalsAt schedule (x.reads + 4)).length := by
    rw [hreads]
    simp [arrivedDuring, List.range', Nat.add_assoc]
  rw [hall] at hw hrx hlate
  have hmod : (ReceiveState.bufferCount count).toNat =
      (y.device.rx.length + (arrivalsAt schedule (x.reads + 3)).length) % 4 := by
    rw [hreads, List.length_append] at hcount
    exact hcount
  have hcount_lt : (ReceiveState.bufferCount count).toNat < 4 := by omega
  -- the word is cut off at the count
  have hlist : (Received.partly count w).toList =
      (x.device.rx ++ arrivedDuring (arrivalsAt schedule) x.reads 4).take
        (ReceiveState.bufferCount count).toNat := by
    have hlength : (Received.partly count w).length.toNat = (ReceiveState.bufferCount count).toNat := by
      simp only [Received.partly, FifoWord.laneCount, UInt8.toNat_ofNat']
      omega
    rw [Received.toList, hlength, Received.partly, hw]
    exact take_lanes_ofBytes (Nat.le_of_lt hcount_lt) (by omega)
  rw [hlist, hrx]
  refine ⟨hx', (keeps_of_cut hcount_lt).congr ?_⟩
  rw [hlate, ← List.length_eq_zero_iff]
  omega

/-- **A fetch** loses no character exactly if it is punctual, and it duplicates and reorders none in
any case. -/
theorem keeps_of_fetches (hx : Ready b x) (hm : Bench.TellsApart b.map) (hf : Fetches b t r)
    (h : Bus.Path (Bench.hardware.rigged schedule).Step x t x') :
    Ready b x' ∧ Keeps (Punctual b (Bench.arrivalsAt schedule) x.reads t) x.device.rx
      (arrivedDuring (Bench.arrivalsAt schedule) x.reads (readCount t)) []
      (brought r ++ x'.device.rx) := by
  cases hf with
  | @full t₁ v w hc hv =>
    obtain ⟨hx', hkeeps⟩ := keeps_of_full hx hm hc hv h
    have hcount : readCount (t₁ ++ [b.readEvent .sr v, b.readEvent .rf w]) = 3 := by
      rw [readCount_append, hc.readCount_eq]
      rfl
    rw [hcount]
    refine ⟨hx', hkeeps.congr (iff_of_true trivial (punctual_of_not_mem fun hmem => ?_))⟩
    exact (List.mem_append.1 hmem).elim hc.force_not_mem
      (by simp [forceEvent, Block.readEvent, Block.writeEvent])
  | @nothing t₁ v count hc hv hzero =>
    obtain ⟨hx', hkeeps⟩ := keeps_of_nothing hx hm hc h
    have hcount : readCount (t₁ ++ [b.readEvent .sr v, b.readEvent .rxfs count]) = 3 := by
      rw [readCount_append, hc.readCount_eq]
      rfl
    rw [hcount]
    refine ⟨hx', hkeeps.congr (iff_of_true trivial (punctual_of_not_mem fun hmem => ?_))⟩
    exact (List.mem_append.1 hmem).elim hc.force_not_mem
      (by simp [forceEvent, Block.readEvent, Block.writeEvent])
  | @forced t₁ v count w hc hv hcount =>
    obtain ⟨hx', hkeeps⟩ := keeps_of_forced hx hm hc hv h
    have hreads : readCount (t₁ ++ b.readEvent .sr v :: b.readEvent .rxfs count ::
        forcedOut b w) = 4 := by
      rw [readCount_append, hc.readCount_eq]
      rfl
    rw [hreads]
    exact ⟨hx', hkeeps.congr (punctual_forced_iff hc).symm⟩

end Fetching

end PolledUart
