import PolledUart.Block
import PolledUart.Word

/-!
# The receive path

The receive FIFO hands out whole words. The status register signals a word only
when four characters have arrived; fewer wait in the packing buffer until a
stale command pushes them out. `Receive.fetch` takes one word either way.

`RxCache` keeps the characters of the last fetched word that have not been
handed out; `RxCache.toList` is its view.
-/

namespace PolledUart

/-- A fetched word and the number of its lanes that hold a character. -/
structure Received where
  word : FifoWord
  length : UInt8
  deriving DecidableEq, Repr

namespace Received

/-- The characters of a fetched word. -/
def toList (r : Received) : List UInt8 := r.word.lanes.take r.length.toNat

end Received

/-- The characters of the last fetched word that have not been handed out. -/
structure RxCache where
  /-- The word, moved down so that the next character is in the lowest lane. -/
  word : FifoWord
  /-- How many lanes still hold a character. -/
  remaining : UInt8
  deriving DecidableEq, Repr

namespace RxCache

/-- No character. -/
def empty : RxCache := ⟨FifoWord.zero, 0⟩

instance : Inhabited RxCache := ⟨empty⟩

/-- All characters have been handed out. -/
def isEmpty (c : RxCache) : Bool := c.remaining == 0

/-- The cache after a fetch. -/
def ofReceived (r : Received) : RxCache := ⟨r.word, r.length⟩

/-- The next character and the cache without it. -/
def pop? (c : RxCache) : Option (UInt8 × RxCache) :=
  if c.isEmpty then none else some (c.word.first, ⟨c.word.shift, c.remaining - 1⟩)

/-- The characters still to be handed out, next one first. -/
def toList (c : RxCache) : List UInt8 := c.word.lanes.take c.remaining.toNat

@[simp] theorem toList_empty : empty.toList = [] := rfl

@[simp] theorem toList_ofReceived (r : Received) : (ofReceived r).toList = r.toList := rfl

theorem pop?_eq_none_iff {c : RxCache} : c.pop? = none ↔ c.remaining = 0 := by
  simp [pop?, isEmpty]

/-- Handing out a character leaves one fewer in the cache. -/
theorem toNat_remaining_of_pop? {c rest : RxCache} {byte : UInt8}
    (h : c.pop? = some (byte, rest)) : c.remaining.toNat = rest.remaining.toNat + 1 := by
  unfold pop? isEmpty at h
  split at h
  · cases h
  · rename_i hne
    cases h
    have h0 : c.remaining.toNat ≠ 0 := fun e => hne (beq_iff_eq.2 (UInt8.toNat_inj.1 e))
    have hone : (1 : UInt8) ≤ c.remaining := UInt8.le_iff_toNat_le.2 (Nat.pos_of_ne_zero h0)
    rw [UInt8.toNat_sub_of_le _ _ hone]
    exact (Nat.succ_pred_eq_of_ne_zero h0).symm

theorem remaining_of_pop? {c rest : RxCache} {byte : UInt8} (h : c.pop? = some (byte, rest))
    (hc : c.remaining ≤ 4) : rest.remaining ≤ 4 := by
  rw [UInt8.le_iff_toNat_le, toNat_remaining_of_pop? h] at hc
  exact UInt8.le_iff_toNat_le.2 (Nat.le_of_succ_le hc)

theorem toList_of_isEmpty {c : RxCache} (h : c.isEmpty = true) : c.toList = [] := by
  rw [toList, eq_of_beq h]
  rfl

/-- Handing out a character takes the first one off the view. -/
theorem toList_of_pop? {c rest : RxCache} {byte : UInt8} (h : c.pop? = some (byte, rest))
    (hc : c.remaining ≤ 4) : c.toList = byte :: rest.toList := by
  have hcount := toNat_remaining_of_pop? h
  have hn : c.remaining.toNat ≤ 4 := UInt8.le_iff_toNat_le.1 hc
  obtain ⟨rfl, hword⟩ : c.word.first = byte ∧ c.word.shift = rest.word := by
    unfold pop? at h
    split at h
    · cases h
    · cases h
      exact ⟨rfl, rfl⟩
  simp only [toList, hcount, ← hword, FifoWord.lanes_shift]
  rw [List.take_append_of_le_length (by simp; omega), FifoWord.lanes_eq_cons c.word,
    List.take_succ_cons]
  rfl

end RxCache

namespace Receive

/-- Clears an overrun, if there is one. It only costs the character that was lost. -/
def clearOverrun (b : Block) : Program Unit := do
  if (← b.read .sr) &&& Status.overrun ≠ 0 then
    b.command Command.resetErrorStatus

/-- Pushes the packing buffer into the FIFO, takes the word, and re-arms the receiver. -/
def forceOut (b : Block) : Program FifoWord := do
  b.command Command.forceStale
  let word ← b.read .rf
  b.command Command.resetStaleInterrupt
  b.write .dmrx receiveOneWord
  return ⟨word⟩

/-- The next word of the receive FIFO, or nothing if no character has arrived. -/
def fetch (b : Block) : Program (Option Received) := do
  clearOverrun b
  if (← b.read .sr) &&& Status.rxReady ≠ 0 then
    let word ← b.read .rf
    return some ⟨⟨word⟩, 4⟩
  else
    let pending := ReceiveState.bufferCount (← b.read .rxfs)
    if pending = 0 then
      return none
    else
      let word ← forceOut b
      return some ⟨word, UInt8.ofNat (min pending.toNat FifoWord.laneCount)⟩

/-- Fetches again and again until a word has arrived, with at most one fetch more than the given
number of turns. -/
def fetchWaiting (b : Block) (turns : Nat) : Program Received := do
  match ← fetch b with
  | some received => return received
  | none =>
    match turns with
    | 0 => .limit
    | turns + 1 => fetchWaiting b turns

end Receive

end PolledUart
