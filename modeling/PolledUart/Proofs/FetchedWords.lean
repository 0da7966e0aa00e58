import PolledUart.Proofs.ReceiveTrace

/-!
# Where the characters that are handed out come from

A port hands out characters from its cache. When the cache is used up it fetches a word
from its block and fills the cache with it; nothing else changes the cache. `Draws` says
this of the events of a read, with the words that were fetched and the characters that
were handed out. The words need not be guessed: they can be read off the trace
(`Trace.fetched`).

* `Draws.conserves` — what was in the cache and in the fetched words is what was handed
  out and what is in the cache now.
* `Draws.fetched_eq` — the fetched words are those of the trace.
* `Draws.readsAt_data`, `Draws.prompted` — the data register is read once for each
  word, and only when the block has shown that there is one.
* `draws_of_reads` — every read keeps to it.
-/

namespace PolledUart

open Trace

/-! ### Words in a trace -/

/-- The registers that are read have offsets of their own. -/
def RegisterMap.ReadsApart (m : RegisterMap) : Prop :=
  ([Register.sr, .isr, .rxfs, .rf].map m.offset).Nodup

instance (m : RegisterMap) : Decidable m.ReadsApart :=
  inferInstanceAs (Decidable (List.Nodup _))

theorem RegisterMap.ReadsApart.ne {m : RegisterMap} (hm : m.ReadsApart) :
    m.sr ≠ m.isr ∧ m.sr ≠ m.rxfs ∧ m.sr ≠ m.rf ∧ m.isr ≠ m.rxfs ∧ m.isr ≠ m.rf ∧ m.rxfs ≠ m.rf := by
  simp only [ReadsApart, RegisterMap.offset, List.map_cons, List.map_nil, List.nodup_cons,
    List.mem_cons, List.not_mem_nil, or_false, not_or] at hm
  exact ⟨hm.1.1, hm.1.2.1, hm.1.2.2, hm.2.1.1, hm.2.1.2, hm.2.2.1⟩

namespace Trace

variable {b : Block} {t u : List Event}

/-- The words that a trace takes from the data register of a block. `count` is the last answer of
the FIFO state, and `forced` tells that the packing buffer has just been pushed out: then the word
has as many characters as the packing buffer had, and else it is full. -/
def fetchedFrom (b : Block) : UInt32 → Bool → List Event → List Received
  | _, _, [] => []
  | count, _, .act c :: t => fetchedFrom b count (decide (.act c = forceEvent b)) t
  | count, forced, .read a v :: t =>
    if a = b.location .rf then
      (if forced then .partly count v else .full v) :: fetchedFrom b count false t
    else fetchedFrom b (if a = b.location .rxfs then v else count) false t

/-- The words that a trace takes from the data register of a block. -/
def fetched (b : Block) (t : List Event) : List Received := fetchedFrom b 0 false t

/-- A trace that does not read the data register takes no word. -/
theorem fetchedFrom_eq_nil (h : ∀ v, .read (b.location .rf) v ∉ t) (count : UInt32)
    (forced : Bool) : fetchedFrom b count forced t = [] := by
  induction t generalizing count forced with
  | nil => rfl
  | cons e t ih =>
    have hrest := ih fun v hv => h v (List.mem_cons_of_mem _ hv)
    cases e with
    | act c => exact hrest count _
    | read a v =>
      have ha : a ≠ b.location .rf := by
        rintro rfl
        exact h v List.mem_cons_self
      rw [fetchedFrom, if_neg ha]
      exact hrest _ _

/-- Every read of the data register directly follows what called for it: a status with a word that
is ready, or a count of waiting characters and the command that pushes them out. -/
def Prompted (b : Block) (t : List Event) : Prop :=
  ∀ before w after, t = before ++ b.readEvent .rf w :: after →
    (∃ v, v &&& Status.rxReady ≠ 0 ∧ [b.readEvent .sr v] <:+ before) ∨
      ∃ count, ReceiveState.bufferCount count ≠ 0 ∧
        [b.readEvent .rxfs count, forceEvent b] <:+ before

theorem prompted_of_not_mem (h : ∀ w, b.readEvent .rf w ∉ t) : Prompted b t := by
  rintro before w after rfl
  exact absurd (by simp) (h w)

/-- The only read of the data register has been called for. -/
theorem prompted_of_called {w : UInt32} (ht : ∀ w, b.readEvent .rf w ∉ t)
    (hu : ∀ w, b.readEvent .rf w ∉ u)
    (hcall : (∃ v, v &&& Status.rxReady ≠ 0 ∧ [b.readEvent .sr v] <:+ t) ∨
      ∃ count, ReceiveState.bufferCount count ≠ 0 ∧
        [b.readEvent .rxfs count, forceEvent b] <:+ t) :
    Prompted b (t ++ b.readEvent .rf w :: u) := by
  intro before w' after h
  have hbefore : before = t := by
    rcases List.append_eq_append_iff.1 h with ⟨c, rfl, hc⟩ | ⟨c, rfl, hc⟩
    · cases c with
      | nil => exact List.append_nil t
      | cons e c =>
        obtain ⟨-, rfl⟩ := List.cons.inj hc
        exact absurd (by simp) (hu w')
    · cases c with
      | nil => exact (List.append_nil before).symm
      | cons e c =>
        obtain ⟨rfl, -⟩ := List.cons.inj hc
        exact absurd (by simp) (ht w')
  rw [hbefore]
  exact hcall

theorem Prompted.append (ht : Prompted b t) (hu : Prompted b u) : Prompted b (t ++ u) := by
  intro before w after h
  rcases List.append_eq_append_iff.1 h with ⟨c, rfl, hc⟩ | ⟨c, hc, hsplit⟩
  · -- the read lies in the second trace, and what called for it too
    rcases hu c w after hc with ⟨v, hv, hs⟩ | ⟨count, hcount, hs⟩
    · exact .inl ⟨v, hv, hs.trans (List.suffix_append t c)⟩
    · exact .inr ⟨count, hcount, hs.trans (List.suffix_append t c)⟩
  · cases c with
    | nil =>
      rw [List.append_nil] at hc
      subst hc
      rcases hu [] w after (by simpa using hsplit.symm) with ⟨v, hv, hs⟩ | ⟨count, hcount, hs⟩
      · exact absurd (List.suffix_nil.1 hs) (List.cons_ne_nil _ _)
      · exact absurd (List.suffix_nil.1 hs) (List.cons_ne_nil _ _)
    | cons e c =>
      obtain ⟨rfl, -⟩ := List.cons.inj hsplit
      exact ht before w c hc

end Trace

/-! ### One fetch -/

section Fetching

variable {b : Block} {t u : List Event}

/-- Looking for an overrun takes no word, and what it leaves behind is forgotten with the next
read. -/
theorem Checks.fetchedFrom (hm : b.map.ReadsApart) (h : Checks b t) (count : UInt32)
    (forced : Bool) {v : UInt32} :
    fetchedFrom b count forced (t ++ b.readEvent .sr v :: u) = fetchedFrom b count false u := by
  obtain ⟨-, hsx, hsr, -⟩ := hm.ne
  cases h with
  | clear _ | overrun _ =>
    simp [Trace.fetchedFrom, Block.readEvent, Block.writeEvent, RegisterMap.offset, hsx, hsr]

theorem Fetches.fetchedFrom (hm : b.map.ReadsApart) {r : Option Received} (h : Fetches b t r)
    (count : UInt32) (forced : Bool) :
    ∃ count', fetchedFrom b count forced (t ++ u) =
      r.toList ++ fetchedFrom b count' false u := by
  obtain ⟨-, -, -, -, -, hxr⟩ := hm.ne
  have hrearm : receiveOneWord ≠ Command.forceStale := by decide
  cases h with
  | full hc _ =>
    refine ⟨count, ?_⟩
    rw [List.append_assoc, List.cons_append, hc.fetchedFrom hm]
    simp [Trace.fetchedFrom, Block.readEvent]
  | @nothing _ _ pending hc _ _ =>
    refine ⟨pending, ?_⟩
    rw [List.append_assoc, List.cons_append, hc.fetchedFrom hm]
    simp [Trace.fetchedFrom, Block.readEvent, RegisterMap.offset, hxr]
  | @forced _ _ pending _ hc _ _ =>
    refine ⟨pending, ?_⟩
    rw [List.append_assoc, List.cons_append, hc.fetchedFrom hm]
    simp [Trace.fetchedFrom, forcedOut, Block.readEvent, Block.writeEvent, RegisterMap.offset, hxr,
      hrearm, forceEvent]

/-- A fetch reads the data register once if it brings a word, and else not at all. -/
theorem Fetches.readsAt_data (hm : b.map.ReadsApart) {r : Option Received} (h : Fetches b t r) :
    readsAt (b.location .rf) t = r.toList.map (·.word.raw) := by
  obtain ⟨-, -, hsr, -, -, hxr⟩ := hm.ne
  have hchecks : ∀ {u : List Event}, Checks b u → readsAt (b.location .rf) u = [] := by
    intro u hu
    cases hu <;>
      simp [readsAt, Event.readAt?, Block.readEvent, Block.writeEvent, RegisterMap.offset, hsr]
  cases h with
  | full hc _ | nothing hc _ _ | forced hc _ _ =>
    rw [readsAt_append, hchecks hc]
    simp [readsAt, List.filterMap_cons, Event.readAt?, forcedOut, Block.readEvent,
      Block.writeEvent, RegisterMap.offset, hsr, hxr, Received.full, Received.partly]

/-- A fetch that brings nothing does not push out the packing buffer. -/
theorem Fetches.force_not_mem (h : Fetches b t none) : forceEvent b ∉ t := by
  cases h with
  | nothing hc _ _ =>
    intro hmem
    rcases List.mem_append.1 hmem with hmem | hmem
    · exact hc.force_not_mem hmem
    · simp [forceEvent, Block.readEvent, Block.writeEvent] at hmem

theorem Fetches.prompted (hm : b.map.ReadsApart) {r : Option Received} (h : Fetches b t r) :
    Prompted b t := by
  obtain ⟨-, -, hsr, -, -, hxr⟩ := hm.ne
  have hchecks : ∀ {u : List Event}, Checks b u → ∀ w, b.readEvent .rf w ∉ u := by
    intro u hu w
    cases hu <;> simp [Block.readEvent, Block.writeEvent, RegisterMap.offset, hsr.symm]
  cases h with
  | @full t v w hc hv =>
    refine (prompted_of_not_mem (hchecks hc)).append ?_
    refine prompted_of_called (t := [b.readEvent .sr v]) ?_ ?_ (.inl ⟨v, hv, List.suffix_refl _⟩)
    · simp [Block.readEvent, RegisterMap.offset, hsr.symm]
    · simp
  | @nothing t v count hc _ _ =>
    refine (prompted_of_not_mem (hchecks hc)).append (prompted_of_not_mem ?_)
    simp [Block.readEvent, RegisterMap.offset, hsr.symm, hxr.symm]
  | @forced t v count w hc _ hcount =>
    refine (prompted_of_not_mem (hchecks hc)).append ?_
    refine prompted_of_called (t := [b.readEvent .sr v, b.readEvent .rxfs count, forceEvent b])
      ?_ ?_ (.inr ⟨count, hcount, List.suffix_cons ..⟩)
    · simp [Block.readEvent, Block.writeEvent, forceEvent, RegisterMap.offset, hsr.symm, hxr.symm]
    · simp [Block.readEvent, Block.writeEvent]

end Fetching

/-! ### Reads -/

/-- The events of reading a port, with the words that were fetched for it and the characters that
were handed out, and its cache before and after. -/
inductive Draws (b : Block) :
    RxCache → List Event → List Received → List UInt8 → RxCache → Prop where
  /-- No further character is asked for. -/
  | done {c : RxCache} : Draws b c [] [] [] c
  /-- The cache hands out a character. -/
  | hand {c rest c' : RxCache} {t : List Event} {words : List Received} {byte : UInt8}
      {bytes : List UInt8} : c.pop? = some (byte, rest) → Draws b rest t words bytes c' →
      Draws b c t words (byte :: bytes) c'
  /-- The cache is used up, and nothing has arrived. -/
  | nothing {c c' : RxCache} {t u : List Event} {words : List Received} {bytes : List UInt8} :
      c.isEmpty = true → Fetches b t none → Draws b c u words bytes c' →
      Draws b c (t ++ u) words bytes c'
  /-- The cache is used up, and filled with the word that is fetched. -/
  | refill {c c' : RxCache} {t u : List Event} {r : Received} {words : List Received}
      {bytes : List UInt8} : c.isEmpty = true → Fetches b t (some r) →
      Draws b (.ofReceived r) u words bytes c' → Draws b c (t ++ u) (r :: words) bytes c'

namespace Draws

variable {b : Block} {c c₁ c' : RxCache} {t u : List Event} {words words' : List Received}
  {bytes bytes' : List UInt8}

theorem append (h : Draws b c t words bytes c₁) (h' : Draws b c₁ u words' bytes' c') :
    Draws b c (t ++ u) (words ++ words') (bytes ++ bytes') c' := by
  induction h with
  | done => exact h'
  | hand hpop _ ih => exact .hand hpop (ih h')
  | nothing hempty hf _ ih =>
    rw [List.append_assoc]
    exact .nothing hempty hf (ih h')
  | refill hempty hf _ ih =>
    rw [List.append_assoc]
    exact .refill hempty hf (ih h')

/-- **Nothing is lost between the data register and the reader.** The characters of the cache and
of the fetched words are those that were handed out and those that are in the cache now. -/
theorem conserves (h : Draws b c t words bytes c') (hc : c.remaining ≤ 4) :
    c'.remaining ≤ 4 ∧ c.toList ++ words.flatMap Received.toList = bytes ++ c'.toList := by
  induction h with
  | done => exact ⟨hc, List.append_nil _⟩
  | hand hpop _ ih =>
    obtain ⟨hc', hlist⟩ := ih (RxCache.remaining_of_pop? hpop hc)
    refine ⟨hc', ?_⟩
    rw [RxCache.toList_of_pop? hpop hc, List.cons_append, List.cons_append, hlist]
  | nothing _ _ _ ih => exact ih hc
  | @refill c _ _ _ r words _ hempty hf _ ih =>
    obtain ⟨hc', hlist⟩ := ih (UInt8.le_iff_toNat_le.2 hf.length_le)
    refine ⟨hc', ?_⟩
    rw [RxCache.toList_of_isEmpty hempty, List.flatMap_cons, List.nil_append]
    exact hlist

/-- The fetched words are those that the trace shows, wherever it stands in a longer one. -/
theorem fetchedFrom_eq (hm : b.map.ReadsApart) (h : Draws b c t words bytes c') (count : UInt32)
    (forced : Bool) :
    ∃ count' forced', fetchedFrom b count forced (t ++ u) =
      words ++ fetchedFrom b count' forced' u := by
  induction h generalizing count forced with
  | done => exact ⟨count, forced, rfl⟩
  | hand _ _ ih => exact ih count forced
  | nothing _ hf _ ih | refill _ hf _ ih =>
    obtain ⟨count₁, h₁⟩ := hf.fetchedFrom hm count forced
    obtain ⟨count₂, forced₂, h₂⟩ := ih count₁ false
    refine ⟨count₂, forced₂, ?_⟩
    rw [List.append_assoc, h₁, h₂]
    rfl

theorem fetched_eq (hm : b.map.ReadsApart) (h : Draws b c t words bytes c') :
    fetched b t = words := by
  obtain ⟨count, forced, heq⟩ := h.fetchedFrom_eq (u := []) hm 0 false
  rw [List.append_nil] at heq
  exact heq.trans (List.append_nil words)

/-- The data register is read once for each word. -/
theorem readsAt_data (hm : b.map.ReadsApart) (h : Draws b c t words bytes c') :
    readsAt (b.location .rf) t = words.map (·.word.raw) := by
  induction h with
  | done => rfl
  | hand _ _ ih => exact ih
  | nothing _ hf _ ih | refill _ hf _ ih =>
    rw [readsAt_append, hf.readsAt_data hm, ih]
    rfl

theorem prompted (hm : b.map.ReadsApart) (h : Draws b c t words bytes c') : Prompted b t := by
  induction h with
  | done => exact prompted_of_not_mem fun _ => List.not_mem_nil
  | hand _ _ ih => exact ih
  | nothing _ hf _ ih | refill _ hf _ ih => exact (hf.prompted hm).append ih

end Draws

/-! ### Every read draws -/

section Reading

variable {b : Block} {c c' : RxCache} {t : List Event}

/-- Fetching for a cache that is used up. -/
theorem draws_of_brings {r : Option Received} (hempty : c.isEmpty = true) (h : Brings b t r) :
    Draws b c t r.toList [] (r.elim c RxCache.ofReceived) := by
  induction h with
  | @last t r hf =>
    rw [← List.append_nil t]
    cases r with
    | none => exact .nothing hempty hf .done
    | some r => exact .refill hempty hf .done
  | again hf _ ih => exact .nothing hempty hf ih

theorem draws_of_takes {r : Except IoError UInt8} (h : Takes b c t r c') :
    ∃ words, Draws b c t words (taken r) c' := by
  cases h with
  | cached hpop => exact ⟨[], .hand hpop .done⟩
  | fetched hempty hb hpop =>
    have hall := (draws_of_brings hempty hb).append (.hand hpop .done)
    rw [List.append_nil] at hall
    exact ⟨_, hall⟩
  | nothing hempty hb => exact ⟨[], draws_of_brings hempty hb⟩

/-- **Reads draw**: they hand out what is in the cache and what they fetch. -/
theorem draws_of_reads {bytes : List UInt8} (h : Reads b c t bytes c') :
    ∃ words, Draws b c t words bytes c' := by
  induction h with
  | done => exact ⟨[], .done⟩
  | byte ht _ ih | nothing ht _ ih =>
    obtain ⟨words, hfirst⟩ := draws_of_takes ht
    obtain ⟨words', hlater⟩ := ih
    exact ⟨_, hfirst.append hlater⟩

end Reading

end PolledUart
