import PolledUart.Proofs.History
import PolledUart.Proofs.ReceiveRing

/-!
# The RAM block receives into a bounded queue

The ring of the RAM block is a head and a length with indices modulo 64. Seen
from outside it is a queue of at most 64 characters with a flag that tells
whether the packing buffer has been pushed out (`BoundedQueue`). What each
access to the block does to that queue, and what it may answer, is written down
without the ring (`BoundedQueue.Serves`), and the block is shown to do just that
(`Ram.Holds.serves`), from every state in which its ring is in order. Such a
state is what every access leaves behind, so the ring is never indexed outside
its cells, however often the queue has gone around it.
-/

namespace PolledUart.Sim

/-! ## The queue -/

/-- What waits in the receiver of a block. -/
structure BoundedQueue where
  /-- The characters, oldest first. -/
  chars : List UInt8
  /-- The packing buffer has been pushed out. -/
  stale : Bool
  /-- No more of them than there is room for. -/
  length_le : chars.length ≤ Ram.capacity

/-- Something done to a block: characters that arrive, or an access to a register at an offset
from its base. -/
inductive Access where
  | arrive (bytes : List UInt8)
  | read (offset : UInt64)
  | write (offset : UInt64) (value : UInt32)

/-- The access does not leave the block. -/
def Access.InBlock : Access → Prop
  | .arrive _ => True
  | .read offset => offset < 0x180
  | .write offset _ => offset < 0x180

instance : DecidablePred Access.InBlock
  | .arrive _ => inferInstanceAs (Decidable True)
  | .read offset => inferInstanceAs (Decidable (offset < 0x180))
  | .write offset _ => inferInstanceAs (Decidable (offset < 0x180))

namespace BoundedQueue

/-- Nothing waits. -/
def empty : BoundedQueue := ⟨[], false, Nat.zero_le _⟩

/-- A word can be taken: the packing buffer has been pushed out, or a whole word waits. -/
def Ready (q : BoundedQueue) : Prop := q.stale = true ∨ 4 ≤ q.chars.length

/-- Characters arrive as long as there is room. -/
def arrive (q : BoundedQueue) (bytes : List UInt8) : BoundedQueue where
  chars := q.chars ++ bytes.take (Ram.capacity - q.chars.length)
  stale := q.stale
  length_le := by
    have h := q.length_le
    simp only [List.length_append, List.length_take]
    omega

/-- The packing buffer is pushed out. -/
def pushOut (q : BoundedQueue) : BoundedQueue := { q with stale := true }

/-- Nothing waits any more. -/
def reset (q : BoundedQueue) : BoundedQueue where
  chars := []
  stale := q.stale
  length_le := Nat.zero_le _

/-- The characters of one word are taken, as far as there are any. -/
def pop (q : BoundedQueue) : BoundedQueue where
  chars := q.chars.drop 4
  stale := false
  length_le := by
    have h := q.length_le
    simp only [List.length_drop]
    omega

/-- What an access to a block with layout `m` may answer, and what waits after it. -/
inductive Serves (m : RegisterMap) (q : BoundedQueue) :
    Access → Option UInt32 → BoundedQueue → Prop where
  /-- Arrivals. -/
  | arrive (bytes : List UInt8) : Serves m q (.arrive bytes) none (q.arrive bytes)
  /-- The status register tells whether a whole word waits. -/
  | status {value : UInt32} (h : value &&& Status.rxReady ≠ 0 ↔ 4 ≤ q.chars.length) :
      Serves m q (.read m.sr) (some value) q
  /-- The FIFO state tells how many characters do not make a whole word. -/
  | state {value : UInt32} (h : (ReceiveState.bufferCount value).toNat = q.chars.length % 4) :
      Serves m q (.read m.rxfs) (some value) q
  /-- A word is taken. Its lanes are the oldest characters, and zero where there are none. -/
  | take {value : UInt32} (hready : q.Ready)
      (h : (FifoWord.mk value).lanes =
        q.chars.take 4 ++ List.replicate (4 - min 4 q.chars.length) 0) :
      Serves m q (.read m.rf) (some value) q.pop
  /-- No word can be taken. -/
  | takeNothing (hready : ¬ q.Ready) : Serves m q (.read m.rf) (some 0) q
  /-- The command that pushes out the packing buffer. -/
  | forceStale : Serves m q (.write m.cr Command.forceStale) none q.pushOut
  /-- The command that resets the receiver. -/
  | resetRx : Serves m q (.write m.cr Command.resetRx) none q.reset
  /-- Any other command. -/
  | command {code : UInt32} (hforce : code ≠ Command.forceStale) (hreset : code ≠ Command.resetRx) :
      Serves m q (.write m.cr code) none q
  /-- A read of any other register. -/
  | otherRead {offset : UInt64} {value : UInt32} (hsr : offset ≠ m.sr) (hrxfs : offset ≠ m.rxfs)
      (hrf : offset ≠ m.rf) : Serves m q (.read offset) (some value) q
  /-- A write to any other register. -/
  | otherWrite {offset : UInt64} {value : UInt32} (hcr : offset ≠ m.cr) :
      Serves m q (.write offset value) none q

end BoundedQueue

open BoundedQueue

/-! ## The block -/

/-- The block with layout `m` stands for the queue: its ring is in order, and the characters in it
are those of the queue. -/
structure Ram.Holds (m : RegisterMap) (r : Ram) (q : BoundedQueue) : Prop where
  map : r.map = m
  sound : r.Sound
  chars : r.queue = q.chars
  stale : r.stale = q.stale

/-- Does an access to the block. -/
def Access.perform : Access → Ram → Outcome Ram (Option UInt32)
  | .arrive bytes, r => .ok none (r.receive bytes)
  | .read offset, r => (Ram.bus.read (Ram.base + offset) r).map fun value r => (some value, r)
  | .write offset value, r => (Ram.bus.write (Ram.base + offset) value r).map fun _ r => (none, r)

namespace Ram

variable {m : RegisterMap} {r : Ram} {q : BoundedQueue} {offset : UInt64}

theorem holds_new (m : RegisterMap) (stuck : Bool) : Holds m (new m stuck) empty where
  map := rfl
  sound := sound_new m stuck
  chars := rfl
  stale := rfl

namespace Holds

theorem waiting_eq (h : Holds m r q) : r.waiting = q.chars.length := by
  rw [← h.chars, length_queue]

/-- Parts of the block that have nothing to do with what waits may change. -/
theorem congr (h : Holds m r q) {r' : Ram} (hmap : r'.map = r.map) (hring : r'.ring = r.ring)
    (hhead : r'.head = r.head) (hwaiting : r'.waiting = r.waiting) (hstale : r'.stale = r.stale) :
    Holds m r' q where
  map := hmap.trans h.map
  sound := h.sound.congr hhead hwaiting
  chars := by
    rw [← h.chars]
    simp only [queue, hring, hhead, hwaiting]
  stale := hstale.trans h.stale

theorem arrive (h : Holds m r q) (bytes : List UInt8) :
    Holds m (r.receive bytes) (q.arrive bytes) := by
  obtain ⟨hsound, hqueue⟩ := queue_receive h.sound bytes
  refine ⟨?_, hsound, ?_, ?_⟩
  · rw [receive_eq]
    exact h.map
  · rw [hqueue, h.chars, h.waiting_eq]
    rfl
  · rw [receive_eq]
    exact h.stale

/-! ### Reads -/

theorem status_rxReady (h : Holds m r q) :
    r.status &&& Status.rxReady ≠ 0 ↔ 4 ≤ q.chars.length := by
  rw [← h.waiting_eq, status]
  by_cases hword : 4 ≤ r.waiting <;> cases r.stuck <;> simp only [hword] <;> decide

theorem bufferCount_receiveState (h : Holds m r q) :
    (ReceiveState.bufferCount r.receiveState).toNat = q.chars.length % 4 := by
  have hfield : ∀ n < 4, (ReceiveState.bufferCount (UInt32.ofNat n <<< 7)).toNat = n := by decide
  rw [← h.waiting_eq, receiveState, hfield _ (Nat.mod_lt _ (by decide))]

/-- The word that is taken is made of the oldest characters. -/
theorem popWord (h : Holds m r q) :
    ∃ value r', Ram.popWord { r with stale := false } = some (value, r') ∧
      (FifoWord.mk value).lanes =
        q.chars.take 4 ++ List.replicate (4 - min 4 q.chars.length) 0 ∧
      Holds m r' q.pop := by
  have hsound : ({ r with stale := false } : Ram).Sound := h.sound.congr rfl rfl
  obtain ⟨r', htake, hsound', hrest, hsame⟩ := takeChars_eq hsound 4
  have hqueue : ({ r with stale := false } : Ram).queue = q.chars := h.chars
  rw [hqueue] at htake hrest
  refine ⟨_, r', by rw [Ram.popWord, htake]; rfl, ?_, ?_, hsound', hrest, ?_⟩
  · have hlength : (q.chars.take 4).length ≤ 4 := List.length_take_le 4 q.chars
    rw [FifoWord.lanes_ofBytes hlength, List.length_take]
  · rw [hsame]
    exact h.map
  · rw [hsame]
    rfl

theorem readData (h : Holds m r q) :
    ∃ value r' q', r.readData = some (value, r') ∧
      Serves m q (.read m.rf) (some value) q' ∧ Holds m r' q' := by
  have hready : (r.stale || decide (4 ≤ r.waiting)) = true ↔ q.Ready := by
    rw [h.stale, h.waiting_eq, Bool.or_eq_true, decide_eq_true_iff, Ready]
  rw [Ram.readData]
  by_cases hq : q.Ready
  · obtain ⟨value, r', hpop, hlanes, hafter⟩ := h.popWord
    rw [if_pos (hready.mpr hq)]
    exact ⟨value, r', q.pop, hpop, .take hq hlanes, hafter⟩
  · rw [if_neg fun hr => hq (hready.mp hr)]
    exact ⟨0, r, q, rfl, .takeNothing hq, h⟩

/-- **Reads.** Each is answered as the queue answers it. -/
theorem readAt (h : Holds m r q) (hm : m = .blsp ∨ m = .gsbi) (hin : offset < 0x180) :
    ∃ value r' q', r.readAt offset = some (value, r') ∧
      Serves m q (.read offset) (some value) q' ∧ Holds m r' q' := by
  rw [Ram.readAt, h.map]
  by_cases hsr : offset = m.sr
  · subst hsr
    rw [if_pos rfl]
    exact ⟨_, r, q, rfl, .status h.status_rxReady, h⟩
  rw [if_neg hsr]
  by_cases hrxfs : offset = m.rxfs
  · have hisr : offset ≠ m.isr := by
      subst hrxfs
      rcases hm with rfl | rfl <;> decide
    subst hrxfs
    rw [if_neg hisr, if_pos rfl]
    exact ⟨_, r, q, rfl, .state h.bufferCount_receiveState, h⟩
  by_cases hrf : offset = m.rf
  · have hisr : offset ≠ m.isr := by
      subst hrf
      rcases hm with rfl | rfl <;> decide
    subst hrf
    rw [if_neg hisr, if_neg hrxfs, if_pos rfl]
    exact h.readData
  -- what is left is the interrupt status and the register file, which the queue says nothing about
  have hother : ∀ value, Serves m q (.read offset) (some value) q := fun _ =>
    .otherRead hsr hrxfs hrf
  rw [if_neg hrxfs, if_neg hrf]
  split
  · exact ⟨_, r, q, rfl, hother _, h⟩
  · have hcell : (offset / 4).toNat < 0x60 := div_four_lt hin
    exact ⟨_, r, q, by rw [Vector.getElem?_eq_getElem hcell]; rfl, hother _, h⟩

/-! ### Writes -/

theorem obey (h : Holds m r q) (code : UInt32) :
    ∃ q', Serves m q (.write m.cr code) none q' ∧ Holds m (r.obey code) q' := by
  rw [Ram.obey]
  by_cases hforce : code = Command.forceStale
  · subst hforce
    rw [if_pos rfl]
    exact ⟨q.pushOut, .forceStale, { h with sound := h.sound.congr rfl rfl, stale := rfl }⟩
  by_cases hreset : code = Command.resetRx
  · subst hreset
    rw [if_neg hforce, if_pos rfl]
    exact ⟨q.reset, .resetRx, { h with sound := ⟨h.sound.head_lt, Nat.zero_le _⟩, chars := rfl }⟩
  · rw [if_neg hforce, if_neg hreset]
    exact ⟨q, .command hforce hreset, h⟩

/-- **Writes.** Each does to what waits what the queue says. -/
theorem writeAt (h : Holds m r q) (hm : m = .blsp ∨ m = .gsbi) (hin : offset < 0x180)
    (value : UInt32) :
    ∃ r' q', r.writeAt offset value = some r' ∧
      Serves m q (.write offset value) none q' ∧ Holds m r' q' := by
  rw [Ram.writeAt, h.map]
  by_cases hcr : offset = m.cr
  · have htf : offset ≠ m.tf := by
      subst hcr
      rcases hm with rfl | rfl <;> decide
    subst hcr
    rw [if_neg htf, if_pos rfl]
    obtain ⟨q', hserves, hafter⟩ := h.obey value
    exact ⟨_, q', rfl, hserves, hafter⟩
  rw [if_neg hcr]
  split
  · exact ⟨_, q, rfl, .otherWrite hcr, h.congr rfl rfl rfl rfl rfl⟩
  · rw [store, dif_pos (div_four_lt hin)]
    refine ⟨_, q, rfl, .otherWrite hcr, ?_⟩
    split <;> exact h.congr rfl rfl rfl rfl rfl

/-- **One access.** It does not fault, it is answered as the queue answers it, and the block stands
for the queue after it. -/
theorem serves (h : Holds m r q) (hm : m = .blsp ∨ m = .gsbi) {a : Access} (hin : a.InBlock) :
    ∃ answer r' q', a.perform r = .ok answer r' ∧ Serves m q a answer q' ∧ Holds m r' q' := by
  cases a with
  | arrive bytes => exact ⟨none, _, _, rfl, .arrive bytes, h.arrive bytes⟩
  | read offset =>
    obtain ⟨value, r', q', hread, hserves, hafter⟩ := h.readAt hm hin
    refine ⟨some value, r', q', ?_, hserves, hafter⟩
    simp only [Access.perform, bus, offset?_base_add hin, Option.bind_some, hread, Outcome.map]
  | write offset value =>
    obtain ⟨r', q', hwrite, hserves, hafter⟩ := h.writeAt hm hin value
    refine ⟨none, r', q', ?_, hserves, hafter⟩
    simp only [Access.perform, bus, offset?_base_add hin, Option.bind_some, hwrite, Outcome.map]

end Holds

end Ram

/-! ## Any number of accesses -/

/-- The accesses run on the block, one after the other, without a fault. Before and after each of
them the block stands for the queue, and each is answered as the queue answers it. -/
inductive Ram.Follows (m : RegisterMap) :
    Ram → BoundedQueue → List Access → List (Option UInt32) → Ram → BoundedQueue → Prop where
  | nil {r : Ram} {q : BoundedQueue} (h : r.Holds m q) : Follows m r q [] [] r q
  | cons {r r₁ r' : Ram} {q q₁ q' : BoundedQueue} {a : Access} {answer : Option UInt32}
      {rest : List Access} {answers : List (Option UInt32)} (h : r.Holds m q)
      (hperform : a.perform r = .ok answer r₁) (hserves : Serves m q a answer q₁)
      (hrest : Follows m r₁ q₁ rest answers r' q') :
      Follows m r q (a :: rest) (answer :: answers) r' q'

/-- A block that stands for a queue follows it through all accesses. -/
theorem Ram.Holds.follows {m : RegisterMap} {r : Ram} {q : BoundedQueue} (h : r.Holds m q)
    (hm : m = .blsp ∨ m = .gsbi) {accesses : List Access} (hin : ∀ a ∈ accesses, a.InBlock) :
    ∃ answers r' q', Follows m r q accesses answers r' q' := by
  induction accesses generalizing r q with
  | nil => exact ⟨[], r, q, .nil h⟩
  | cons a rest ih =>
    rw [List.forall_mem_cons] at hin
    obtain ⟨answer, r₁, q₁, hperform, hserves, h₁⟩ := h.serves hm hin.1
    obtain ⟨answers, r', q', hrest⟩ := ih h₁ hin.2
    exact ⟨answer :: answers, r', q', .cons h hperform hserves hrest⟩

/-- In every state of such a run the ring is in order, and no more waits than there is room for. -/
theorem Ram.Follows.holds {m : RegisterMap} {r r' : Ram} {q q' : BoundedQueue}
    {accesses : List Access} {answers : List (Option UInt32)}
    (h : Follows m r q accesses answers r' q') : r'.Holds m q' := by
  induction h with
  | nil h => exact h
  | cons _ _ _ _ ih => exact ih

/-- **The receive ring is a bounded queue.** Characters arrive at a new block with one of the two
known layouts, and its registers are read and written, in any order and as often as one likes. No
access faults, the ring is never indexed outside its cells, and the block receives, answers and
forgets as the queue of at most 64 characters does that is empty at the start. -/
theorem ram_follows_boundedQueue (m : RegisterMap) (hm : m = .blsp ∨ m = .gsbi) (stuck : Bool)
    (accesses : List Access) (hin : ∀ a ∈ accesses, a.InBlock) :
    ∃ answers r q, Ram.Follows m (.new m stuck) .empty accesses answers r q ∧
      r.head < 64 ∧ r.waiting ≤ 64 ∧ r.queue = q.chars := by
  obtain ⟨answers, r, q, h⟩ := (Ram.holds_new m stuck).follows hm hin
  exact ⟨answers, r, q, h, h.holds.sound.head_lt, h.holds.sound.waiting_le, h.holds.chars⟩

/-- A ring that is filled beyond its capacity, emptied by one word and filled again: the last
characters stand before its head. -/
def aroundTheRing : List Access :=
  [.arrive (.replicate 70 0x61), .read RegisterMap.gsbi.sr, .read RegisterMap.gsbi.rf,
    .arrive [0x62, 0x63, 0x64, 0x65, 0x66], .write RegisterMap.gsbi.cr Command.forceStale,
    .read RegisterMap.gsbi.rxfs, .read RegisterMap.gsbi.rf]

theorem boundedQueue_around :
    (∀ a ∈ aroundTheRing, a.InBlock) ∧
      ∃ answers r q, Ram.Follows .gsbi (.new .gsbi false) .empty aroundTheRing answers r q ∧
        r.head < 64 ∧ r.waiting ≤ 64 ∧ r.queue = q.chars :=
  ⟨by decide, ram_follows_boundedQueue .gsbi (.inr rfl) false aroundTheRing (by decide)⟩

end PolledUart.Sim
