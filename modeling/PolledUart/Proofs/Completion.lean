import PolledUart.Block

/-!
# Completed runs

A run that ends with a value is taken apart along the program that caused it.
`Bus.Completes bus p s t a s'` says that `p`, run on `bus` from state `s`, ends
with the value `a` in state `s'` after the events `t`; it is the successful half
of `Bus.run`, as a relation with one rule for each form of a program.

* `Bus.completes_iff` — the relation and the interpreter agree.
* `Bus.completes_bind_iff` — a sequence completes when both halves do, and its
  trace is the one trace after the other.
* `Block.completes_read_iff`, `Block.completes_write_iff` — what one access to a
  register is on the bus.
* `Bus.Completes.path`, `Bus.Path.map` — a completed run is a path of its events,
  and what every step does to a view of the state, the whole path does.
-/

namespace PolledUart

/-! ### What a trace shows -/

namespace Event

/-- The address and the value of a write. -/
def write? : Event → Option (Address × UInt32)
  | .act (.write a v) => some (a, v)
  | _ => none

/-- The value of a read of one address. -/
def readAt? (address : Address) : Event → Option UInt32
  | .read a v => if a = address then some v else none
  | .act _ => none

end Event

namespace Trace

/-- The writes of a trace, in order. -/
def writes (t : List Event) : List (Address × UInt32) := t.filterMap Event.write?

/-- The answers that one address gave, in order. -/
def readsAt (address : Address) (t : List Event) : List UInt32 := t.filterMap (Event.readAt? address)

/-- Number of reads of a trace. -/
def readCount (t : List Event) : Nat := t.countP Event.isRead

@[simp] theorem writes_nil : writes [] = [] := rfl

@[simp] theorem writes_append (t u : List Event) : writes (t ++ u) = writes t ++ writes u :=
  List.filterMap_append

@[simp] theorem writes_read (a : Address) (v : UInt32) (t : List Event) :
    writes (.read a v :: t) = writes t := rfl

@[simp] theorem writes_write (a : Address) (v : UInt32) (t : List Event) :
    writes (.act (.write a v) :: t) = (a, v) :: writes t := rfl

@[simp] theorem writes_delay (us : UInt32) (t : List Event) :
    writes (.act (.delay us) :: t) = writes t := rfl

@[simp] theorem writes_enter (t : List Event) : writes (.act .enter :: t) = writes t := rfl

@[simp] theorem writes_leave (t : List Event) : writes (.act .leave :: t) = writes t := rfl

@[simp] theorem readsAt_append (a : Address) (t u : List Event) :
    readsAt a (t ++ u) = readsAt a t ++ readsAt a u :=
  List.filterMap_append

theorem readsAt_eq_nil {a : Address} {t : List Event} (h : ∀ v, .read a v ∉ t) :
    readsAt a t = [] := by
  refine List.filterMap_eq_nil_iff.2 fun e he => ?_
  cases e with
  | act c => rfl
  | read a' v =>
    refine if_neg ?_
    rintro rfl
    exact h v he

@[simp] theorem readCount_nil : readCount [] = 0 := rfl

@[simp] theorem readCount_append (t u : List Event) :
    readCount (t ++ u) = readCount t + readCount u :=
  List.countP_append

@[simp] theorem readCount_read (a : Address) (v : UInt32) (t : List Event) :
    readCount (.read a v :: t) = readCount t + 1 :=
  List.countP_cons_of_pos rfl

@[simp] theorem readCount_act (c : Action) (t : List Event) :
    readCount (.act c :: t) = readCount t :=
  List.countP_cons_of_neg (by simp [Event.isRead])

end Trace

namespace Bus

variable {σ α β : Type} {bus : Bus σ}

/-- The program ends with a value, after the events of a trace. -/
inductive Completes (bus : Bus σ) : Program α → σ → List Event → α → σ → Prop where
  /-- The end. -/
  | done {a : α} {s : σ} : Completes bus (.done a) s [] a s
  /-- A read that is answered. -/
  | read {address : Address} {next : UInt32 → Program α} {s s₁ s' : σ} {v : UInt32}
      {t : List Event} {a : α} : bus.read address s = .ok v s₁ →
      Completes bus (next v) s₁ t a s' →
      Completes bus (.read address next) s (.read address v :: t) a s'
  /-- An action that is taken. -/
  | act {c : Action} {next : Program α} {s s₁ s' : σ} {t : List Event} {a : α} :
      bus.act c s = .ok () s₁ → Completes bus next s₁ t a s' →
      Completes bus (.act c next) s (.act c :: t) a s'

/-- The relation is the interpreter, where that ends with a value. -/
theorem completes_iff {p : Program α} {s s' : σ} {t : List Event} {a : α} :
    bus.Completes p s t a s' ↔ bus.run p s = ⟨.ok a s', t⟩ := by
  constructor
  · intro h
    induction h with
    | done => rfl
    | read hr _ ih => simp only [run, hr, ih]
    | act hc _ ih => simp only [run, hc, ih]
  · intro h
    induction p generalizing s t with
    | done b =>
      simp only [run, Run.mk.injEq, Outcome.ok.injEq] at h
      obtain ⟨⟨rfl, rfl⟩, rfl⟩ := h
      exact .done
    | fault => simp [run] at h
    | limit => simp [run] at h
    | read address next ih =>
      simp only [run] at h
      split at h
      · rename_i v s₁ hr
        simp only [Run.mk.injEq] at h
        obtain ⟨h, rfl⟩ := h
        exact .read hr (ih v (by rw [← h]))
      all_goals simp at h
    | act c next ih =>
      simp only [run] at h
      split at h
      · rename_i s₁ hc
        simp only [Run.mk.injEq] at h
        obtain ⟨h, rfl⟩ := h
        exact .act hc (ih (by rw [← h]))
      all_goals simp at h

section Inversion

variable {s s' : σ} {t : List Event}

@[simp] theorem completes_done_iff {a b : α} :
    bus.Completes (.done b) s t a s' ↔ t = [] ∧ a = b ∧ s' = s := by
  constructor
  · rintro ⟨⟩
    exact ⟨rfl, rfl, rfl⟩
  · rintro ⟨rfl, rfl, rfl⟩
    exact .done

@[simp] theorem not_completes_fault {a : α} : ¬ bus.Completes .fault s t a s' := nofun

@[simp] theorem not_completes_limit {a : α} : ¬ bus.Completes .limit s t a s' := nofun

theorem completes_read_iff {address : Address} {next : UInt32 → Program α} {a : α} :
    bus.Completes (.read address next) s t a s' ↔
      ∃ v s₁ t₁, bus.read address s = .ok v s₁ ∧ bus.Completes (next v) s₁ t₁ a s' ∧
        t = .read address v :: t₁ := by
  constructor
  · intro h
    cases h with
    | read hr h => exact ⟨_, _, _, hr, h, rfl⟩
  · rintro ⟨v, s₁, t₁, hr, h, rfl⟩
    exact .read hr h

theorem completes_act_iff {c : Action} {next : Program α} {a : α} :
    bus.Completes (.act c next) s t a s' ↔
      ∃ s₁ t₁, bus.act c s = .ok () s₁ ∧ bus.Completes next s₁ t₁ a s' ∧ t = .act c :: t₁ := by
  constructor
  · intro h
    cases h with
    | act hc h => exact ⟨_, _, hc, h, rfl⟩
  · rintro ⟨s₁, t₁, hc, h, rfl⟩
    exact .act hc h

/-- A single action completes as that action. -/
theorem completes_perform_iff {c : Action} {u : Unit} :
    bus.Completes (Program.perform c) s t u s' ↔ bus.act c s = .ok () s' ∧ t = [.act c] := by
  rw [Program.perform, completes_act_iff]
  constructor
  · rintro ⟨s₁, t₁, hc, h, rfl⟩
    obtain ⟨rfl, -, rfl⟩ := completes_done_iff.1 h
    exact ⟨hc, rfl⟩
  · rintro ⟨hc, rfl⟩
    exact ⟨_, _, hc, .done, rfl⟩

theorem completes_bind_iff {p : Program α} {f : α → Program β} {b : β} :
    bus.Completes (p.bind f) s t b s' ↔
      ∃ a s₁ t₁ t₂, bus.Completes p s t₁ a s₁ ∧ bus.Completes (f a) s₁ t₂ b s' ∧ t = t₁ ++ t₂ := by
  constructor
  · intro h
    induction p generalizing s t with
    | done a => exact ⟨a, s, [], t, .done, h, rfl⟩
    | fault => exact absurd h not_completes_fault
    | limit => exact absurd h not_completes_limit
    | read address next ih =>
      obtain ⟨v, s₁, t₁, hr, hn, rfl⟩ := completes_read_iff.1 h
      obtain ⟨a, s₂, u₁, u₂, h₁, h₂, rfl⟩ := ih v hn
      exact ⟨a, s₂, _, u₂, .read hr h₁, h₂, rfl⟩
    | act c next ih =>
      obtain ⟨s₁, t₁, hc, hn, rfl⟩ := completes_act_iff.1 h
      obtain ⟨a, s₂, u₁, u₂, h₁, h₂, rfl⟩ := ih hn
      exact ⟨a, s₂, _, u₂, .act hc h₁, h₂, rfl⟩
  · rintro ⟨a, s₁, t₁, t₂, h₁, h₂, rfl⟩
    induction h₁ with
    | done => exact h₂
    | read hr _ ih => exact .read hr (ih h₂)
    | act hc _ ih => exact .act hc (ih h₂)

/-- A program that goes on to its end at once has no events of its own. -/
theorem completes_bind_done_iff {p : Program α} {f : α → β} {b : β} :
    bus.Completes (p.bind fun a => .done (f a)) s t b s' ↔
      ∃ a, bus.Completes p s t a s' ∧ b = f a := by
  rw [completes_bind_iff]
  constructor
  · rintro ⟨a, s₁, t₁, t₂, h, hd, rfl⟩
    obtain ⟨rfl, rfl, rfl⟩ := completes_done_iff.1 hd
    exact ⟨a, by rwa [List.append_nil], rfl⟩
  · rintro ⟨a, h, rfl⟩
    exact ⟨a, s', t, [], h, .done, (List.append_nil t).symm⟩

end Inversion

/-! ### Paths of states -/

/-- What one event does to the state of the bus. -/
def Step (bus : Bus σ) (s : σ) : Event → σ → Prop
  | .read address v, s' => bus.read address s = .ok v s'
  | .act c, s' => bus.act c s = .ok () s'

/-- A path of steps, one for each event of a trace. -/
inductive Path (step : β → Event → β → Prop) : β → List Event → β → Prop where
  /-- No event, no step. -/
  | nil {x : β} : Path step x [] x
  /-- A step and the rest of the path. -/
  | cons {x y z : β} {e : Event} {t : List Event} :
      step x e y → Path step y t z → Path step x (e :: t) z

/-- **A completed run is a path of its events**: where it ends is settled by its trace. -/
theorem Completes.path {p : Program α} {s s' : σ} {t : List Event} {a : α}
    (h : bus.Completes p s t a s') : Path bus.Step s t s' := by
  induction h with
  | done => exact .nil
  | read hr _ ih => exact .cons hr ih
  | act hc _ ih => exact .cons hc ih

/-- What every step does to a view of the state, under an invariant it keeps, a path does from
end to end. -/
theorem Path.map {γ : Type} {step : β → Event → β → Prop} (inv : β → Prop) (view : β → γ)
    (step' : γ → Event → γ → Prop)
    (hstep : ∀ {x e y}, inv x → step x e y → inv y ∧ step' (view x) e (view y))
    {x z : β} {t : List Event} (hx : inv x) (h : Path step x t z) :
    inv z ∧ Path step' (view x) t (view z) := by
  induction h with
  | nil => exact ⟨hx, .nil⟩
  | cons hs _ ih =>
    obtain ⟨hy, hs'⟩ := hstep hx hs
    obtain ⟨hz, hpath⟩ := ih hy
    exact ⟨hz, .cons hs' hpath⟩

section Paths

variable {step : β → Event → β → Prop} {x z : β}

theorem path_nil_iff : Path step x [] z ↔ z = x := by
  constructor
  · rintro ⟨⟩
    rfl
  · rintro rfl
    exact .nil

theorem path_cons_iff {e : Event} {t : List Event} :
    Path step x (e :: t) z ↔ ∃ y, step x e y ∧ Path step y t z := by
  constructor
  · intro h
    cases h with
    | cons hs h => exact ⟨_, hs, h⟩
  · rintro ⟨y, hs, h⟩
    exact .cons hs h

theorem path_append_iff {t u : List Event} :
    Path step x (t ++ u) z ↔ ∃ y, Path step x t y ∧ Path step y u z := by
  induction t generalizing x with
  | nil => simp [path_nil_iff]
  | cons e t ih =>
    simp only [List.cons_append, path_cons_iff, ih]
    constructor
    · rintro ⟨y, hs, w, h₁, h₂⟩
      exact ⟨w, ⟨y, hs, h₁⟩, h₂⟩
    · rintro ⟨w, ⟨y, hs, h₁⟩, h₂⟩
      exact ⟨y, hs, w, h₁, h₂⟩

/-- A path of steps that each compute the next state is a fold. -/
theorem path_fold_iff {f : β → Event → β} {t : List Event} :
    Path (fun x e y => y = f x e) x t z ↔ z = t.foldl f x := by
  induction t generalizing x with
  | nil => exact path_nil_iff
  | cons e t ih => simp only [path_cons_iff, exists_eq_left, ih, List.foldl_cons]

end Paths

end Bus

/-! ### Accesses of a block -/

namespace Block

variable {σ : Type} {bus : Bus σ} {b : Block} {r : Register} {s s' : σ} {t : List Event}

/-- Where a register is on the bus, if the address space reaches that far. -/
def location (b : Block) (r : Register) : Address := b.base + b.map.offset r

/-- A register was read. -/
def readEvent (b : Block) (r : Register) (value : UInt32) : Event := .read (b.location r) value

/-- A register was written. -/
def writeEvent (b : Block) (r : Register) (value : UInt32) : Event :=
  .act (.write (b.location r) value)

@[simp] theorem location_inj {q : Register} :
    b.location r = b.location q ↔ b.map.offset r = b.map.offset q :=
  ⟨fun h => UInt64.add_right_inj b.base |>.1 h, fun h => congrArg (b.base + ·) h⟩

theorem eq_location {a : Address} (h : b.address? r = some a) : a = b.location r :=
  Address.eq_add_of_plus? h

theorem completes_address_iff {a : Address} :
    bus.Completes (b.address r) s t a s' ↔
      b.address? r = some (b.location r) ∧ t = [] ∧ a = b.location r ∧ s' = s := by
  cases h : b.address? r with
  | none => simp [address_of_address?_none h]
  | some a' =>
    obtain rfl := eq_location h
    simp [address_of_address? h]

theorem completes_read_iff {v : UInt32} :
    bus.Completes (b.read r) s t v s' ↔
      b.address? r = some (b.location r) ∧ bus.read (b.location r) s = .ok v s' ∧
        t = [b.readEvent r v] := by
  rw [read, Bus.completes_bind_iff]
  constructor
  · rintro ⟨a, s₁, t₁, t₂, h₁, h₂, rfl⟩
    obtain ⟨ha, rfl, rfl, rfl⟩ := completes_address_iff.1 h₁
    obtain ⟨w, s₂, t₃, hr, hd, rfl⟩ := Bus.completes_read_iff.1 h₂
    obtain ⟨rfl, rfl, rfl⟩ := Bus.completes_done_iff.1 hd
    exact ⟨ha, hr, rfl⟩
  · rintro ⟨ha, hr, rfl⟩
    exact ⟨_, s, [], _, completes_address_iff.2 ⟨ha, rfl, rfl, rfl⟩, .read hr .done, rfl⟩

theorem completes_write_iff {value : UInt32} {u : Unit} :
    bus.Completes (b.write r value) s t u s' ↔
      b.address? r = some (b.location r) ∧ bus.write (b.location r) value s = .ok () s' ∧
        t = [b.writeEvent r value] := by
  rw [write, Bus.completes_bind_iff]
  constructor
  · rintro ⟨a, s₁, t₁, t₂, h₁, h₂, rfl⟩
    obtain ⟨ha, rfl, rfl, rfl⟩ := completes_address_iff.1 h₁
    obtain ⟨hw, rfl⟩ := Bus.completes_perform_iff.1 h₂
    exact ⟨ha, hw, rfl⟩
  · rintro ⟨ha, hw, rfl⟩
    exact ⟨_, s, [], _, completes_address_iff.2 ⟨ha, rfl, rfl, rfl⟩,
      Bus.completes_perform_iff.2 ⟨hw, rfl⟩, rfl⟩

end Block

end PolledUart
