import PolledUart.Sim.Ram

/-!
# The receive ring of the RAM block

The ring of 64 cells is a queue (`Ram.queue`): characters that arrive go to its end as
long as there is room, characters that are taken come from its front, and the ring is
never read outside its cells. Where the oldest character stands does not matter, and a
reset does not move it.

* `Ram.queue_receive` — as many characters arrive as there is room for.
* `Ram.takeChars_eq` — taking characters takes them from the front.
-/

namespace PolledUart.Sim.Ram

/-- The receive side of a block is in order: the oldest character stands in the ring, and no more
characters wait than the ring has cells. -/
structure Sound (r : Ram) : Prop where
  head_lt : r.head < 64
  waiting_le : r.waiting ≤ capacity

variable {r : Ram}

theorem sound_new (map : RegisterMap) (stuck : Bool) : (new map stuck).Sound :=
  ⟨(by decide : 0 < 64), (by decide : 0 ≤ capacity)⟩

/-- Only the place of the queue matters. -/
theorem Sound.congr {r' : Ram} (h : r.Sound) (hhead : r'.head = r.head)
    (hwaiting : r'.waiting = r.waiting) : r'.Sound :=
  ⟨hhead ▸ h.head_lt, hwaiting ▸ h.waiting_le⟩

@[simp] theorem length_queue (r : Ram) : r.queue.length = r.waiting := by
  simp [queue]

theorem queue_eq_nil_iff : r.queue = [] ↔ r.waiting = 0 := by
  rw [← List.length_eq_zero_iff, length_queue]

/-! ### Offsets -/

/-- An address in the block is not below it. -/
theorem offset?_base_add {offset : UInt64} (h : offset < 0x180) :
    offset? (base + offset) = some offset := by
  have hbase : base.toNat = 0x78000000 := rfl
  have hlt : offset.toNat < 0x180 := UInt64.lt_iff_toNat_lt.1 h
  have hsum : (base + offset).toNat = base.toNat + offset.toNat := by
    rw [UInt64.toNat_add, hbase]
    omega
  have hle : base ≤ base + offset := by
    rw [UInt64.le_iff_toNat_le, hsum]
    exact Nat.le_add_right _ _
  rw [offset?, if_pos hle, UInt64.add_comm, UInt64.add_sub_cancel]

/-- An offset in the block is in its register file. -/
theorem div_four_lt {offset : UInt64} (h : offset < 0x180) : (offset / 4).toNat < 0x60 := by
  have hfour : (4 : UInt64).toNat = 4 := rfl
  have hlt : offset.toNat < 0x180 := UInt64.lt_iff_toNat_lt.1 h
  rw [UInt64.toNat_div, hfour]
  omega

/-! ### Arrivals -/

/-- A character that finds room goes to the end of the queue. -/
theorem queue_arrive (hroom : r.waiting < capacity) (byte : UInt8) :
    (r.arrive byte).queue = r.queue ++ [byte] := by
  have hne : r.waiting ≠ capacity := Nat.ne_of_lt hroom
  have hcapacity : r.waiting < 64 := hroom
  unfold arrive
  rw [if_neg hne]
  unfold queue
  rw [List.range_succ, List.map_append]
  congr 1
  · refine List.map_congr_left fun i hi => ?_
    have hlt : i < r.waiting := List.mem_range.1 hi
    -- the cell that is written is none of those that hold a waiting character
    have hcell : (r.head + r.waiting) % 64 ≠ (r.head + i) % 64 := by omega
    exact Vector.getElem_set_ne (Nat.mod_lt _ (by decide)) (Nat.mod_lt _ (by decide)) hcell
  · exact congrArg (fun c => [c]) (Vector.getElem_set_self _)

theorem Sound.arrive (h : r.Sound) (byte : UInt8) : (r.arrive byte).Sound := by
  unfold Ram.arrive
  split
  · exact h
  · rename_i hne
    have hle := h.waiting_le
    exact ⟨h.head_lt, Nat.lt_of_le_of_ne hle hne⟩

/-- **Arrivals.** As many characters arrive as there is room for, in order. -/
theorem queue_receive (h : r.Sound) (bytes : List UInt8) :
    (r.receive bytes).Sound ∧
      (r.receive bytes).queue = r.queue ++ bytes.take (capacity - r.waiting) := by
  unfold receive
  induction bytes generalizing r with
  | nil => exact ⟨h, by simp⟩
  | cons byte rest ih =>
    obtain ⟨hsound, hqueue⟩ := ih (h.arrive byte)
    rw [List.foldl_cons]
    refine ⟨hsound, hqueue.trans ?_⟩
    by_cases hfull : r.waiting = capacity
    · have harrive : r.arrive byte = r := by
        unfold Ram.arrive
        rw [if_pos hfull]
      rw [harrive, hfull, Nat.sub_self, List.take_zero, List.take_zero]
    · have hroom : r.waiting < capacity := Nat.lt_of_le_of_ne h.waiting_le hfull
      have hwaiting : (r.arrive byte).waiting = r.waiting + 1 := by
        unfold Ram.arrive
        rw [if_neg hfull]
      have hsucc : capacity - r.waiting = capacity - (r.waiting + 1) + 1 := by omega
      rw [queue_arrive hroom, hwaiting, hsucc, List.take_succ_cons, List.append_assoc,
        List.singleton_append]

/-- Characters that arrive change the ring, and no other part of the block. -/
theorem receive_eq (r : Ram) (bytes : List UInt8) :
    r.receive bytes =
      { r with ring := (r.receive bytes).ring, waiting := (r.receive bytes).waiting } := by
  unfold receive
  induction bytes generalizing r with
  | nil => rfl
  | cons byte rest ih =>
    have harrive : r.arrive byte =
        { r with ring := (r.arrive byte).ring, waiting := (r.arrive byte).waiting } := by
      unfold Ram.arrive
      split <;> rfl
    rw [List.foldl_cons]
    refine (ih _).trans ?_
    rw [harrive]

/-! ### Taking characters -/

/-- The queue begins with the character at the head of the ring. -/
theorem queue_eq_cons (h : r.head < 64) (hne : r.waiting ≠ 0) :
    r.queue = r.ring[r.head] ::
      ({ r with head := (r.head + 1) % 64, waiting := r.waiting - 1 } : Ram).queue := by
  obtain ⟨n, hn⟩ := Nat.exists_eq_succ_of_ne_zero hne
  unfold queue
  rw [hn, List.range_succ_eq_map, List.map_cons, List.map_map]
  congr 1
  · have hcell : (r.head + 0) % 64 = r.head := Nat.mod_eq_of_lt h
    simp only [Vector.get, hcell]
    rfl
  · refine List.map_congr_left fun i _ => ?_
    have hcell : (r.head + (i + 1)) % 64 = ((r.head + 1) % 64 + i) % 64 := by omega
    simp only [Function.comp, Nat.succ_eq_add_one, hcell]

/-- **Taking characters.** The ring is not read outside its cells; what is taken is the front of the
queue and what stays is the rest, and nothing but the place of the queue changes. -/
theorem takeChars_eq (h : r.Sound) (n : Nat) :
    ∃ r', takeChars n r = some (r.queue.take n, r') ∧ r'.Sound ∧ r'.queue = r.queue.drop n ∧
      r' = { r with head := r'.head, waiting := r'.waiting } := by
  induction n generalizing r with
  | zero => exact ⟨r, rfl, h, rfl, rfl⟩
  | succ n ih =>
    unfold takeChars
    by_cases hempty : r.waiting = 0
    · have hqueue : r.queue = [] := queue_eq_nil_iff.2 hempty
      rw [if_pos hempty, hqueue]
      exact ⟨r, rfl, h, hqueue, rfl⟩
    · have hle := h.waiting_le
      have hnext : ({ r with head := (r.head + 1) % 64, waiting := r.waiting - 1 } : Ram).Sound :=
        ⟨Nat.mod_lt _ (by decide), Nat.le_trans (Nat.sub_le _ _) hle⟩
      obtain ⟨r', htake, hsound, hrest, hsame⟩ := ih hnext
      rw [if_neg hempty, dif_pos h.head_lt, htake, queue_eq_cons h.head_lt hempty]
      exact ⟨r', rfl, hsound, hrest, hsame⟩

end PolledUart.Sim.Ram
