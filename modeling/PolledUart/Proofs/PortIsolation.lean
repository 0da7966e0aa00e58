import PolledUart.Proofs.CallMirroring

/-!
# Ports do not disturb each other

Two ports of one driver share its configuration, its table of ports, the bus, and a table of
receive caches. Suppose the device has a part that alone answers the addresses of one block
(`Bus.HasPart`). Then what is done on a port of another block, and what happens to the rest
of the device, leaves no trace on the port of this one: leaving it all out changes neither
the answers of its calls, nor what they do on the bus, nor its receive cache, nor the state
of the part.

Between any two requests of a call the device may change from the other side. Who moves when
is told by a list of turns, and an interleaving of calls is computed from a plan with such a
list for each call (`Session.interleave`).

* `Bus.completes_iff_interleave` — without controls an interleaving is a completed run.
* `Bus.HasPart.interleave_within`, `Bus.HasPart.interleave_outside` — a program that keeps to
  the part, and one that keeps out of it.
* `Bus.hasPart_beside` — the first of two devices side by side on one bus is a part of both.
* `port_isolated` — whole interleavings.
-/

namespace PolledUart

open Program Sim

variable {σ τ ρ κ κ' α β : Type} {slots : Nat}

/-! ### Interleavings -/

/-- Makes the next request of a program: what happened, what is left of the program, and the state
after it; nothing if it has ended or the request does not complete. -/
def Bus.next (bus : Bus σ) : Program α → σ → Option (Event × Program α × σ)
  | .read a next, s =>
    match bus.read a s with
    | .ok v s' => some (.read a v, next v, s')
    | _ => none
  | .act c next, s =>
    match bus.act c s with
    | .ok () s' => some (.act c, next, s')
    | _ => none
  | _, _ => none

/-- Whose move it is while a call is going on. -/
inductive Turn (κ : Type) where
  /-- The program makes its next request. -/
  | driver
  /-- Whoever operates the device carries out a control. -/
  | control (k : κ)

/-- Runs a program with controls in between, as the turns say, from its first request to its last:
its value, what it did on the bus, and the state at the end; nothing if it does not complete in
these turns. -/
def Bus.interleave (bus : Bus σ) (operate : κ → σ → Option σ) :
    List (Turn κ) → Program α → σ → Option (α × List Event × σ)
  | [], .done a, s => some (a, [], s)
  | [], _, _ => none
  | .driver :: turns, p, s => (bus.next p s).bind fun step =>
    (bus.interleave operate turns step.2.1 step.2.2).map fun r => (r.1, step.1 :: r.2.1, r.2.2)
  | .control k :: turns, p, s => (operate k s).bind fun s' => bus.interleave operate turns p s'

/-- Something planned for a session. -/
inductive Plan (κ : Type) where
  /-- A call, with loops unrolled `fuel` times, and the turns while it is going on. -/
  | call (fuel : Nat) (c : Call) (turns : List (Turn κ))
  /-- A control between two calls. -/
  | control (k : κ)

/-- A call that has been made: its answer and what it did on the bus. -/
structure Exchange where
  call : Call
  reply : Reply
  trace : List Event

/-- Carries out a plan: the calls with their answers, and the session after it; nothing if something
does not complete. -/
def Session.interleave (bus : Bus σ) (operate : κ → σ → Option σ) :
    List (Plan κ) → Session σ slots → Option (List Exchange × Session σ slots)
  | [], x => some ([], x)
  | .call fuel c turns :: rest, x =>
    (bus.interleave operate turns (c.program fuel x.driver) x.bus).bind fun r =>
      (interleave bus operate rest ⟨r.1.2, r.2.2⟩).map fun later =>
        (⟨c, r.1.1, r.2.1⟩ :: later.1, later.2)
  | .control k :: rest, x =>
    (operate k x.bus).bind fun s => interleave bus operate rest ⟨x.driver, s⟩

/-- The program asks for an event, and goes on with what is left of it. -/
inductive Program.Takes : Program α → Event → Program α → Prop where
  /-- A read and its answer. -/
  | read {a : Address} {next : UInt32 → Program α} {v : UInt32} :
      Takes (.read a next) (.read a v) (next v)
  /-- An action. -/
  | act {c : Action} {next : Program α} : Takes (.act c next) (.act c) next

/-- A next request has two sides: the program asks for it, and the bus makes the step. -/
theorem Bus.next_eq_some_iff {bus : Bus σ} {p p' : Program α} {s s' : σ} {e : Event} :
    bus.next p s = some (e, p', s') ↔ p.Takes e p' ∧ bus.Step s e s' := by
  constructor
  · intro h
    cases p with
    | done a | fault | limit => cases h
    | read a next =>
      simp only [Bus.next] at h
      split at h
      · rename_i v s₁ hread
        simp only [Option.some.injEq, Prod.mk.injEq] at h
        obtain ⟨rfl, rfl, rfl⟩ := h
        exact ⟨.read, hread⟩
      · cases h
    | act c next =>
      simp only [Bus.next] at h
      split at h
      · rename_i s₁ hact
        simp only [Option.some.injEq, Prod.mk.injEq] at h
        obtain ⟨rfl, rfl, rfl⟩ := h
        exact ⟨.act, hact⟩
      · cases h
  · rintro ⟨htakes, hstep⟩
    cases htakes with
    | read =>
      have hread : bus.read _ s = .ok _ s' := hstep
      simp only [next, hread]
    | act =>
      have hact : bus.act _ s = .ok () s' := hstep
      simp only [next, hact]

section Runs

variable {bus : Bus σ} {operate : κ → σ → Option σ} {turns : List (Turn κ)} {p : Program α}
  {s s' : σ} {t : List Event} {a : α}

theorem Bus.interleave_nil_iff :
    bus.interleave operate [] p s = some (a, t, s') ↔ p = .done a ∧ t = [] ∧ s' = s := by
  cases p with
  | done b => simp [interleave, eq_comm]
  | _ => simp [interleave]

theorem Bus.interleave_driver_iff :
    bus.interleave operate (.driver :: turns) p s = some (a, t, s') ↔
      ∃ e p₁ s₁ t₁, p.Takes e p₁ ∧ bus.Step s e s₁ ∧
        bus.interleave operate turns p₁ s₁ = some (a, t₁, s') ∧ t = e :: t₁ := by
  simp only [interleave, Option.bind_eq_some_iff, Option.map_eq_some_iff]
  constructor
  · rintro ⟨⟨e, p₁, s₁⟩, hnext, ⟨b, t₁, s₂⟩, hrest, hr⟩
    simp only [Prod.mk.injEq] at hr
    obtain ⟨rfl, rfl, rfl⟩ := hr
    obtain ⟨htakes, hstep⟩ := next_eq_some_iff.1 hnext
    exact ⟨e, p₁, s₁, t₁, htakes, hstep, hrest, rfl⟩
  · rintro ⟨e, p₁, s₁, t₁, htakes, hstep, hrest, rfl⟩
    exact ⟨(e, p₁, s₁), next_eq_some_iff.2 ⟨htakes, hstep⟩, (a, t₁, s'), hrest, rfl⟩

theorem Bus.interleave_control_iff {k : κ} {r : α × List Event × σ} :
    bus.interleave operate (.control k :: turns) p s = some r ↔
      ∃ s₁, operate k s = some s₁ ∧ bus.interleave operate turns p s₁ = some r := by
  rw [interleave]
  exact Option.bind_eq_some_iff

/-- Without controls an interleaving is a completed run. -/
theorem Bus.completes_iff_interleave : bus.Completes p s t a s' ↔
    bus.interleave operate (t.map fun _ => .driver) p s = some (a, t, s') := by
  induction t generalizing p s with
  | nil =>
    rw [List.map_nil, interleave_nil_iff]
    constructor
    · intro h
      cases h with
      | done => exact ⟨rfl, rfl, rfl⟩
    · rintro ⟨rfl, -, rfl⟩
      exact .done
  | cons e t ih =>
    rw [List.map_cons, interleave_driver_iff]
    constructor
    · intro h
      cases h with
      | read hread hrest => exact ⟨_, _, _, t, .read, hread, ih.1 hrest, rfl⟩
      | act hact hrest => exact ⟨_, _, _, t, .act, hact, ih.1 hrest, rfl⟩
    · rintro ⟨e', p₁, s₁, t₁, htakes, hstep, hrest, heq⟩
      obtain ⟨rfl, rfl⟩ := List.cons.inj heq
      cases htakes with
      | read => exact .read hstep (ih.2 hrest)
      | act => exact .act hstep (ih.2 hrest)

/-- An interleaving answers the program as its trace tells. -/
theorem Bus.follow_of_interleave
    (h : bus.interleave operate turns p s = some (a, t, s')) : p.follow t = some a := by
  induction turns generalizing p s t with
  | nil =>
    obtain ⟨rfl, rfl, -⟩ := interleave_nil_iff.1 h
    rfl
  | cons turn turns ih =>
    cases turn with
    | driver =>
      obtain ⟨e, p₁, s₁, t₁, htakes, -, hrest, rfl⟩ := interleave_driver_iff.1 h
      cases htakes with
      | read => exact follow_read_iff.2 ⟨_, _, rfl, ih hrest⟩
      | act => exact follow_act_iff.2 ⟨_, rfl, ih hrest⟩
    | control k =>
      obtain ⟨s₁, -, hrest⟩ := interleave_control_iff.1 h
      exact ih hrest

end Runs

/-! ### Parts of a device -/

/-- The address of an access. -/
def Event.address? : Event → Option Address
  | .read a _ => some a
  | .act (.write a _) => some a
  | .act _ => none

/-- The device has a part, of which `view` is the state. It alone answers the addresses of `own`,
and it is left alone by accesses to those of `foreign`, by delays and barriers, and by the controls
that are not `mine`. -/
structure Bus.HasPart (bus : Bus σ) (operate : κ → σ → Option σ) (own foreign : Address → Prop)
    (mine : κ → Bool) (view : σ → ρ) : Prop where
  own : ∀ e a, e.address? = some a → own a → ∀ s₁ s₂ s₁', view s₂ = view s₁ →
    bus.Step s₁ e s₁' → ∃ s₂', bus.Step s₂ e s₂' ∧ view s₂' = view s₁'
  foreign : ∀ e a, e.address? = some a → foreign a → ∀ s s', bus.Step s e s' → view s' = view s
  delay : ∀ us s₁ s₂ s₁', view s₂ = view s₁ → bus.delay us s₁ = .ok () s₁' →
    view s₁' = view s₁ ∧ ∃ s₂', bus.delay us s₂ = .ok () s₂' ∧ view s₂' = view s₂
  barrier : ∀ s, view (bus.barrier s) = view s
  control : ∀ k, mine k = true → ∀ s₁ s₂ s₁', view s₂ = view s₁ → operate k s₁ = some s₁' →
    ∃ s₂', operate k s₂ = some s₂' ∧ view s₂' = view s₁'
  others : ∀ k, mine k = false → ∀ s s', operate k s = some s' → view s' = view s

/-- The turn is one of the program, or brings a control of the part. -/
def Turn.within (mine : κ → Bool) : Turn κ → Bool
  | .driver => true
  | .control k => mine k

/-- The control of the part that a turn brings, if it does. -/
def Turn.control? (mine : κ → Bool) : Turn κ → Option κ
  | .driver => none
  | .control k => if mine k then some k else none

/-- Accesses to some addresses only. -/
def Request.KeepsTo (own : Address → Prop) : Request → Prop
  | .read a => own a
  | .act (.write a _) => own a
  | .act _ => True
  | .stop => True

theorem Program.Asks.takes {P : Request → Prop} {A : α → Prop} {p p' : Program α} {e : Event}
    (hp : p.Asks P A) (h : p.Takes e p') : P e.request ∧ p'.Asks P A := by
  cases h with
  | read => exact ⟨hp.1, hp.2 _⟩
  | act => exact hp

theorem Program.Mirrors.takes {L : α → Prop} {R : α → β → Prop} {p p₁ : Program α}
    {p' : Program β} {e : Event} (hp : p.Mirrors Eq False L R p') (h : p.Takes e p₁) :
    ∃ p₁', p'.Takes e p₁' ∧ p₁.Mirrors Eq False L R p₁' := by
  cases hp with
  | done _ | fault | limit => cases h
  | read hq hnext =>
    obtain rfl := Request.read.inj hq
    cases h with
    | read => exact ⟨_, .read, hnext _⟩
  | act hq hnext =>
    obtain rfl := Request.act.inj hq
    cases h with
    | act => exact ⟨_, .act, hnext⟩
  | lapse hlapse => exact hlapse.allowed.elim

namespace Bus.HasPart

variable {bus : Bus σ} {operate : κ → σ → Option σ} {own foreign : Address → Prop}
  {mine : κ → Bool} {view : σ → ρ}

/-- What is no access leaves the part alone. -/
theorem aside (h : bus.HasPart operate own foreign mine view) {c : Action}
    (hc : (Event.act c).address? = none) (s₁ s₂ s₁' : σ) (hview : view s₂ = view s₁)
    (hstep : bus.Step s₁ (.act c) s₁') :
    view s₁' = view s₁ ∧ ∃ s₂', bus.Step s₂ (.act c) s₂' ∧ view s₂' = view s₁' := by
  have hact : bus.act c s₁ = .ok () s₁' := hstep
  cases c with
  | write a v => cases hc
  | delay us =>
    obtain ⟨hsame, s₂', hdelay, hsame₂⟩ := h.delay us s₁ s₂ s₁' hview hact
    exact ⟨hsame, s₂', hdelay, by rw [hsame₂, hsame, hview]⟩
  | barrier =>
    obtain ⟨-, rfl⟩ := Outcome.ok.inj hact
    exact ⟨h.barrier s₁, _, rfl, by rw [h.barrier, h.barrier, hview]⟩
  | enter | leave | clock _ | pads _ =>
    obtain ⟨-, rfl⟩ := Outcome.ok.inj hact
    exact ⟨rfl, s₂, rfl, hview⟩

/-- One step of a program that keeps to the part. -/
theorem step_within (h : bus.HasPart operate own foreign mine view) {e : Event}
    (he : Request.KeepsTo own e.request) (s₁ s₂ s₁' : σ) (hview : view s₂ = view s₁)
    (hstep : bus.Step s₁ e s₁') : ∃ s₂', bus.Step s₂ e s₂' ∧ view s₂' = view s₁' := by
  cases e with
  | read a v => exact h.own _ a rfl he s₁ s₂ s₁' hview hstep
  | act c =>
    cases c with
    | write a v => exact h.own _ a rfl he s₁ s₂ s₁' hview hstep
    | _ => exact (h.aside rfl s₁ s₂ s₁' hview hstep).2

/-- One step of a program that keeps out of the part. -/
theorem step_outside (h : bus.HasPart operate own foreign mine view) {e : Event}
    (he : Request.KeepsTo foreign e.request) (s s' : σ) (hstep : bus.Step s e s') :
    view s' = view s := by
  cases e with
  | read a v => exact h.foreign _ a rfl he s s' hstep
  | act c =>
    cases c with
    | write a v => exact h.foreign _ a rfl he s s' hstep
    | _ => exact (h.aside rfl s s s' rfl hstep).1

variable {turns : List (Turn κ)} {s₁ s₂ s₁' : σ} {t : List Event}

/-- **A program that keeps to the part** goes the same way whatever the rest of the device is like
and whatever is done to it, and so does any program that mirrors it. -/
theorem interleave_within (h : bus.HasPart operate own foreign mine view) {L : α → Prop}
    {A : α → Prop} {R : α → β → Prop} {p : Program α} {p' : Program β} {a : α}
    (hp : p.Asks (Request.KeepsTo own) A) (hmirrors : p.Mirrors Eq False L R p')
    (hview : view s₂ = view s₁)
    (hrun : bus.interleave operate turns p s₁ = some (a, t, s₁')) :
    ∃ b s₂', bus.interleave operate (turns.filter (Turn.within mine)) p' s₂ = some (b, t, s₂') ∧
      R a b ∧ view s₂' = view s₁' := by
  induction turns generalizing p p' s₁ s₂ t with
  | nil =>
    obtain ⟨rfl, rfl, rfl⟩ := interleave_nil_iff.1 hrun
    cases hmirrors with
    | done hab => exact ⟨_, s₂, rfl, hab, hview⟩
    | lapse hlapse => exact hlapse.allowed.elim
  | cons turn turns ih =>
    cases turn with
    | driver =>
      obtain ⟨e, p₁, s, t₁, htakes, hstep, hrest, rfl⟩ := interleave_driver_iff.1 hrun
      obtain ⟨he, hp₁⟩ := hp.takes htakes
      obtain ⟨p₁', htakes', hmirrors₁⟩ := hmirrors.takes htakes
      obtain ⟨s', hstep', hview'⟩ := h.step_within he s₁ s₂ s hview hstep
      obtain ⟨b, s₂', hrest', hab, hend⟩ := ih hp₁ hmirrors₁ hview' hrest
      exact ⟨b, s₂', interleave_driver_iff.2 ⟨e, p₁', s', t₁, htakes', hstep', hrest', rfl⟩, hab,
        hend⟩
    | control k =>
      obtain ⟨s, hoperate, hrest⟩ := interleave_control_iff.1 hrun
      cases hk : mine k with
      | true =>
        obtain ⟨s', hoperate', hview'⟩ := h.control k hk s₁ s₂ s hview hoperate
        obtain ⟨b, s₂', hrest', hab, hend⟩ := ih hp hmirrors hview' hrest
        refine ⟨b, s₂', ?_, hab, hend⟩
        rw [List.filter_cons_of_pos (by simpa [Turn.within] using hk)]
        exact interleave_control_iff.2 ⟨s', hoperate', hrest'⟩
      | false =>
        have hview' : view s₂ = view s := hview.trans (h.others k hk s₁ s hoperate).symm
        rw [List.filter_cons_of_neg (by simpa [Turn.within] using hk)]
        exact ih hp hmirrors hview' hrest

/-- **A program that keeps out of the part** does to it no more than the controls of the part that
come in between. -/
theorem interleave_outside (h : bus.HasPart operate own foreign mine view) {A : α → Prop}
    {p : Program α} {a : α} (hp : p.Asks (Request.KeepsTo foreign) A) (hview : view s₂ = view s₁)
    (hrun : bus.interleave operate turns p s₁ = some (a, t, s₁')) (driver : Driver slots) :
    ∃ s₂', view s₂' = view s₁' ∧ ∀ rest,
      Session.interleave bus operate
          ((turns.filterMap (Turn.control? mine)).map .control ++ rest) ⟨driver, s₂⟩ =
        Session.interleave bus operate rest ⟨driver, s₂'⟩ := by
  induction turns generalizing p s₁ s₂ t with
  | nil =>
    obtain ⟨rfl, rfl, rfl⟩ := interleave_nil_iff.1 hrun
    exact ⟨s₂, hview, fun _ => rfl⟩
  | cons turn turns ih =>
    cases turn with
    | driver =>
      obtain ⟨e, p₁, s, t₁, htakes, hstep, hrest, rfl⟩ := interleave_driver_iff.1 hrun
      obtain ⟨he, hp₁⟩ := hp.takes htakes
      have hview' : view s₂ = view s := hview.trans (h.step_outside he s₁ s hstep).symm
      exact ih hp₁ hview' hrest
    | control k =>
      obtain ⟨s, hoperate, hrest⟩ := interleave_control_iff.1 hrun
      cases hk : mine k with
      | true =>
        obtain ⟨s', hoperate', hview'⟩ := h.control k hk s₁ s₂ s hview hoperate
        obtain ⟨s₂', hend, hsame⟩ := ih hp hview' hrest
        refine ⟨s₂', hend, fun rest => ?_⟩
        have hcontrol : (Turn.control k).control? mine = some k := if_pos hk
        rw [List.filterMap_cons_some hcontrol, List.map_cons, List.cons_append,
          Session.interleave, hoperate']
        exact hsame rest
      | false =>
        have hview' : view s₂ = view s := hview.trans (h.others k hk s₁ s hoperate).symm
        have hcontrol : (Turn.control k).control? mine = none := if_neg (by simp [hk])
        rw [List.filterMap_cons_none hcontrol]
        exact ih hp hview' hrest

end Bus.HasPart

/-! ### Devices side by side -/

/-- Two devices on one bus, of which the first answers the addresses of `left` and the second all
others. Neither takes notice of delays and barriers. -/
def Bus.beside (left : Address → Bool) (first : Bus σ) (second : Bus τ) : Bus (σ × τ) where
  read a s :=
    if left a then (first.read a s.1).map fun v s' => (v, (s', s.2))
    else (second.read a s.2).map fun v s' => (v, (s.1, s'))
  write a v s :=
    if left a then (first.write a v s.1).map fun u s' => (u, (s', s.2))
    else (second.write a v s.2).map fun u s' => (u, (s.1, s'))
  delay _ s := .ok () s
  barrier s := s

/-- The controls of two devices side by side. -/
def besideControls (first : κ → σ → Option σ) (second : κ' → τ → Option τ) :
    κ ⊕ κ' → σ × τ → Option (σ × τ)
  | .inl k, s => (first k s.1).map fun s' => (s', s.2)
  | .inr k, s => (second k s.2).map fun s' => (s.1, s')

theorem Outcome.map_left_eq_ok_iff {o : Outcome σ α} {y : τ} {b : α} {s : σ × τ} :
    (o.map fun v s' => (v, (s', y))) = .ok b s ↔ o = .ok b s.1 ∧ s.2 = y := by
  cases o <;> simp [Outcome.map, Prod.ext_iff, and_assoc, eq_comm]

theorem Outcome.map_right_eq_ok_iff {o : Outcome τ α} {x : σ} {b : α} {s : σ × τ} :
    (o.map fun v s' => (v, (x, s'))) = .ok b s ↔ o = .ok b s.2 ∧ s.1 = x := by
  cases o <;> grind [Outcome.map]

namespace Bus

variable {left : Address → Bool} {first : Bus σ} {second : Bus τ} {e : Event} {a : Address}

/-- An access to the first of two devices. -/
theorem step_beside_left (he : e.address? = some a) (ha : left a = true) {s s' : σ × τ} :
    (beside left first second).Step s e s' ↔ first.Step s.1 e s'.1 ∧ s'.2 = s.2 := by
  cases e with
  | read a' v =>
    obtain rfl := Option.some.inj he
    simp only [Step, beside, if_pos ha, Outcome.map_left_eq_ok_iff]
  | act c =>
    cases c with
    | write a' v =>
      obtain rfl := Option.some.inj he
      simp only [Step, act, beside, if_pos ha, Outcome.map_left_eq_ok_iff]
    | _ => cases he

/-- An access to the second of two devices. -/
theorem step_beside_right (he : e.address? = some a) (ha : left a = false) {s s' : σ × τ} :
    (beside left first second).Step s e s' ↔ second.Step s.2 e s'.2 ∧ s'.1 = s.1 := by
  have hright : ¬ left a = true := by simp [ha]
  cases e with
  | read a' v =>
    obtain rfl := Option.some.inj he
    simp only [Step, beside, if_neg hright, Outcome.map_right_eq_ok_iff]
  | act c =>
    cases c with
    | write a' v =>
      obtain rfl := Option.some.inj he
      simp only [Step, act, beside, if_neg hright, Outcome.map_right_eq_ok_iff]
    | _ => cases he

/-- **The first of two devices** is a part of both. -/
theorem hasPart_beside {own foreign : Address → Prop} {operate : κ → σ → Option σ}
    {operate' : κ' → τ → Option τ} (hown : ∀ a, own a → left a = true)
    (hforeign : ∀ a, foreign a → left a = false) :
    (beside left first second).HasPart (besideControls operate operate') own foreign Sum.isLeft
      Prod.fst where
  own := by
    intro e a he ha s₁ s₂ s₁' hview hstep
    obtain ⟨hfirst, -⟩ := (step_beside_left he (hown a ha)).1 hstep
    rw [← hview] at hfirst
    exact ⟨(s₁'.1, s₂.2), (step_beside_left he (hown a ha)).2 ⟨hfirst, rfl⟩, rfl⟩
  foreign := by
    intro e a he ha s s' hstep
    exact ((step_beside_right he (hforeign a ha)).1 hstep).2
  delay := by
    intro us s₁ s₂ s₁' hview hdelay
    obtain ⟨-, rfl⟩ := Outcome.ok.inj hdelay
    exact ⟨rfl, s₂, rfl, rfl⟩
  barrier := fun _ => rfl
  control := by
    rintro (k | k) hk s₁ s₂ s₁' hview hoperate
    · obtain ⟨x, hx, rfl⟩ := Option.map_eq_some_iff.1 hoperate
      rw [← hview] at hx
      exact ⟨(x, s₂.2), Option.map_eq_some_iff.2 ⟨x, hx, rfl⟩, rfl⟩
    · cases hk
  others := by
    rintro (k | k) hk s s' hoperate
    · cases hk
    · obtain ⟨x, -, rfl⟩ := Option.map_eq_some_iff.1 hoperate
      rfl

end Bus

/-! ### What a call on a port asks for -/

/-- The addresses of the registers of a block. -/
def Block.addresses (b : Block) : List Address := Register.all.map b.location

theorem Block.location_mem_addresses (b : Block) (r : Register) : b.location r ∈ b.addresses :=
  List.mem_map_of_mem (Register.mem_all r)

/-- The event is an access to one of the addresses. -/
def Event.touches (addresses : List Address) (e : Event) : Bool :=
  e.address?.any fun a => a ∈ addresses

theorem Event.touches_of_keepsTo {addresses : List Address} {a : Address} {e : Event}
    (he : Request.KeepsTo (· ∈ addresses) e.request) (ha : e.address? = some a) :
    a ∈ addresses := by
  cases e with
  | read a' v =>
    obtain rfl := Option.some.inj ha
    exact he
  | act c =>
    cases c with
    | write a' v =>
      obtain rfl := Option.some.inj ha
      exact he
    | _ => cases ha

/-- Accesses to other addresses are none to these. -/
theorem Event.filter_touches_of_disjoint {own foreign : List Address} (h : own.Disjoint foreign)
    {t : List Event} (ht : ∀ e ∈ t, Request.KeepsTo (· ∈ foreign) e.request) :
    t.filter (Event.touches own) = [] := by
  refine List.filter_eq_nil_iff.2 fun e he htouches => ?_
  obtain ⟨a, ha, hown⟩ := (Option.any_eq_true _ _).1 htouches
  exact h (by simpa using hown) (touches_of_keepsTo (ht e he) ha)

section Calls

variable {bus : Bus σ} {d d' : Driver slots} {p q : PortId} {base : Address} {c : Call}
  {fuel : Nat} {reply : Reply}

/-- **What a call asks for**: it keeps to the addresses of the block of its port. -/
theorem Driver.asks_keepsTo (fuel : Nat) (hc : c.port? = some p)
    (hp : d.ports.resolve p = some base) :
    (c.program fuel d).Asks (Request.KeepsTo (· ∈ (d.block base).addresses)) fun _ => True := by
  have hmem := (d.block base).location_mem_addresses
  refine asks_of_call ?_ fun port hport => ?_
  · rintro _ _ _ _ rfl
    cases hc
  · obtain rfl : p = port := Option.some.inj (hc.symm.trans hport)
    constructor
    · intro a ha
      obtain rfl : base = a := Option.some.inj (hp.symm.trans ha)
      exact { stop := fun _ _ => trivial, look := fun q _ => hmem q, delay := trivial,
              enter := trivial, leave := trivial, count := fun _ => hmem _,
              command := fun _ _ => hmem _, data := fun _ => hmem _ }
    · intro a ha
      obtain rfl : base = a := Option.some.inj (hp.symm.trans ha)
      exact { stop := fun _ _ => trivial, look := fun q _ => hmem q,
              command := fun _ _ => hmem _, rearm := hmem _ }

/-- A call on a port leaves the table of ports as it is. -/
theorem Driver.Leaves.ports_eq (h : d.Leaves c reply d') (hc : c.port? = some p) :
    d'.ports = d.ports := by
  cases h with
  | failed => cases hc
  | opened => cases hc
  | used => rfl

variable {config config' : Config} {ports : Registry slots} {d₁ : Driver slots}

/-- What a call on another port makes of the first driver is no matter for the cache of this one. -/
theorem Driver.Pair.of_leaves (h : Pair (· = p.index) config config' ports d d')
    (hc : c.port? = some q) (hne : q ≠ p) (hleaves : d.Leaves c reply d₁) :
    Pair (· = p.index) config config' ports d₁ d' where
  config_eq := hleaves.config_eq.trans h.config_eq
  config_eq' := h.config_eq'
  ports_eq := (hleaves.ports_eq hc).trans h.ports_eq
  ports_eq' := h.ports_eq'
  caches := by
    rintro i rfl
    rw [h.caches _ rfl]
    cases hleaves with
    | failed => rfl
    | opened => cases hc
    | @used _ _ port cache hport _ =>
      obtain rfl : port = q := Option.some.inj (hport.symm.trans hc)
      have hindex : port.index ≠ p.index := fun heq =>
        hne (congrArg PortId.mk (UInt8.toNat_inj.1 heq))
      exact (Vector.getElem?_setIfInBounds_ne hindex).symm

/-- The same call on two drivers that agree on its port: the same requests, the same answer, and two
drivers that still agree on it. -/
theorem Driver.mirrors_program (h : Pair (· = p.index) config config ports d d')
    (hc : c.port? = some p) :
    Mirrors Eq False (fun _ => False)
      (fun x y => ∃ ports', Pair.Result (· = p.index) config config ports' x y)
      (c.program fuel d) (c.program fuel d') := by
  rw [Call.program_eq, Call.program_eq]
  refine (mirrors_call h (PollPolicy.pace_refl rfl _ fuel) ⟨rfl, rfl, rfl⟩
    (fun _ _ _ _ _ => ⟨Block.twin_refl _, fun _ _ _ => rfl⟩) fun port hport => ?_).bind
    ?_ fun _ hfalse _ => hfalse.elim
  · obtain rfl : p = port := Option.some.inj (hc.symm.trans hport)
    exact ⟨rfl, fun _ _ => Block.twin_refl _⟩
  · rintro x y ⟨ports', hvalue, hpair⟩
    exact .done ⟨ports', congrArg Prod.snd hvalue, hpair⟩

end Calls

/-! ### Leaving out the other port -/

/-- The plan is for a call with some property, or for a control. -/
def Plan.Calls (P : Call → Prop) : Plan κ → Prop
  | .call _ c _ => P c
  | .control _ => True

/-- What is left of a plan without the calls on other ports and without the controls that are not
`mine`. -/
def Plan.only (p : PortId) (mine : κ → Bool) : Plan κ → List (Plan κ)
  | .call fuel c turns =>
    if c.port? = some p then [.call fuel c (turns.filter (Turn.within mine))]
    else (turns.filterMap (Turn.control? mine)).map .control
  | .control k => if mine k then [.control k] else []

/-- The call was made on the port. -/
def Exchange.isOn (p : PortId) (e : Exchange) : Bool := e.call.port? = some p

section Isolation

variable {bus : Bus σ} {operate : κ → σ → Option σ} {mine : κ → Bool} {view : σ → ρ}
  {p q : PortId} {baseA baseB : Address} {config : Config} {ports : Registry slots}

/-- The two sessions are the same for a port: only the receive caches of other ports and the rest of
the device may differ. -/
structure Session.SameFor (p : PortId) (config : Config) (ports : Registry slots) (view : σ → ρ)
    (x y : Session σ slots) : Prop where
  drivers : Driver.Pair (· = p.index) config config ports x.driver y.driver
  parts : view y.bus = view x.bus

theorem Session.interleave_call_iff {fuel : Nat} {c : Call} {turns : List (Turn κ)}
    {rest : List (Plan κ)} {x x' : Session σ slots} {exchanges : List Exchange} :
    Session.interleave bus operate (.call fuel c turns :: rest) x = some (exchanges, x') ↔
      ∃ reply d t s later,
        bus.interleave operate turns (c.program fuel x.driver) x.bus = some ((reply, d), t, s) ∧
        Session.interleave bus operate rest ⟨d, s⟩ = some (later, x') ∧
        exchanges = ⟨c, reply, t⟩ :: later := by
  simp only [interleave, Option.bind_eq_some_iff, Option.map_eq_some_iff]
  constructor
  · rintro ⟨⟨⟨reply, d⟩, t, s⟩, hcall, ⟨later, x''⟩, hrest, hr⟩
    obtain ⟨rfl, rfl⟩ := Prod.mk.inj hr
    exact ⟨reply, d, t, s, later, hcall, hrest, rfl⟩
  · rintro ⟨reply, d, t, s, later, hcall, hrest, rfl⟩
    exact ⟨((reply, d), t, s), hcall, (later, x'), hrest, rfl⟩

theorem Session.interleave_control_iff {k : κ} {rest : List (Plan κ)} {x : Session σ slots}
    {r : List Exchange × Session σ slots} :
    Session.interleave bus operate (.control k :: rest) x = some r ↔
      ∃ s, operate k x.bus = some s ∧
        Session.interleave bus operate rest ⟨x.driver, s⟩ = some r := by
  rw [interleave]
  exact Option.bind_eq_some_iff

namespace Session.SameFor

variable {x y : Session σ slots} {own foreign : List Address}

section Steps

variable {fuel : Nat} {c : Call} {turns : List (Turn κ)} {reply : Reply} {d : Driver slots}
  {t : List Event} {s : σ}

/-- A call on the port is answered alike in both sessions. -/
theorem call_own (h : SameFor p config ports view x y)
    (hpart : bus.HasPart operate (· ∈ own) (· ∈ foreign) mine view)
    (hp : ports.resolve p = some baseA) (hown : own = Block.addresses ⟨baseA, config.registers⟩)
    (hc : c.port? = some p)
    (hrun : bus.interleave operate turns (c.program fuel x.driver) x.bus =
      some ((reply, d), t, s)) :
    ∃ d' s', bus.interleave operate (turns.filter (Turn.within mine)) (c.program fuel y.driver)
        y.bus = some ((reply, d'), t, s') ∧
      SameFor p config ports view ⟨d, s⟩ ⟨d', s'⟩ := by
  have hasks : (c.program fuel x.driver).Asks (Request.KeepsTo (· ∈ own)) fun _ => True := by
    subst hown
    have hkeeps := Driver.asks_keepsTo fuel hc (h.drivers.ports_eq ▸ hp)
    rwa [Driver.block, h.drivers.config_eq] at hkeeps
  obtain ⟨⟨reply', d'⟩, s', hrun', ⟨ports', hreply, hpair⟩, hparts⟩ :=
    hpart.interleave_within hasks (Driver.mirrors_program h.drivers hc) h.parts hrun
  obtain rfl : reply' = reply := hreply
  have hleaves := Driver.leaves_of_completes (completes_of_follow (Bus.follow_of_interleave hrun))
  obtain rfl : ports' = ports := by
    rw [← hpair.ports_eq, hleaves.ports_eq hc, h.drivers.ports_eq]
  exact ⟨d', s', hrun', hpair, hparts⟩

/-- A call on the other port goes unnoticed, but for the controls of the part that come in
between. -/
theorem call_other (h : SameFor p config ports view x y)
    (hpart : bus.HasPart operate (· ∈ own) (· ∈ foreign) mine view)
    (hq : ports.resolve q = some baseB)
    (hforeign : foreign = Block.addresses ⟨baseB, config.registers⟩) (hne : q ≠ p)
    (hc : c.port? = some q)
    (hrun : bus.interleave operate turns (c.program fuel x.driver) x.bus =
      some ((reply, d), t, s)) :
    (∀ e ∈ t, Request.KeepsTo (· ∈ foreign) e.request) ∧
      ∃ s', SameFor p config ports view ⟨d, s⟩ ⟨y.driver, s'⟩ ∧ ∀ rest,
        Session.interleave bus operate
            ((turns.filterMap (Turn.control? mine)).map .control ++ rest) y =
          Session.interleave bus operate rest ⟨y.driver, s'⟩ := by
  have hasks : (c.program fuel x.driver).Asks (Request.KeepsTo (· ∈ foreign)) fun _ => True := by
    subst hforeign
    have hkeeps := Driver.asks_keepsTo fuel hc (h.drivers.ports_eq ▸ hq)
    rwa [Driver.block, h.drivers.config_eq] at hkeeps
  have hcompletes := completes_of_follow (Bus.follow_of_interleave hrun)
  have hdrivers := h.drivers.of_leaves hc hne (Driver.leaves_of_completes hcompletes)
  obtain ⟨s', hparts, hcontrols⟩ := hpart.interleave_outside hasks h.parts hrun y.driver
  exact ⟨(hcompletes.asks hasks).2, s', ⟨hdrivers, hparts⟩, hcontrols⟩

end Steps

/-- **Two sessions that are the same for a port**, one of which goes on with all that is planned and
the other without the calls on the other port and the controls of the other part, stay the same
for it. -/
theorem interleave {plans : List (Plan κ)} {exchanges : List Exchange} {x' : Session σ slots}
    (h : SameFor p config ports view x y)
    (hpart : bus.HasPart operate (· ∈ own) (· ∈ foreign) mine view)
    (hp : ports.resolve p = some baseA) (hown : own = Block.addresses ⟨baseA, config.registers⟩)
    (hq : ports.resolve q = some baseB)
    (hforeign : foreign = Block.addresses ⟨baseB, config.registers⟩)
    (hdisjoint : own.Disjoint foreign) (hne : q ≠ p)
    (hplans : ∀ plan ∈ plans, plan.Calls fun c => c.port? = some p ∨ c.port? = some q)
    (hrun : Session.interleave bus operate plans x = some (exchanges, x')) :
    ∃ y', Session.interleave bus operate (plans.flatMap (Plan.only p mine)) y =
        some (exchanges.filter (Exchange.isOn p), y') ∧
      SameFor p config ports view x' y' ∧
      (exchanges.flatMap Exchange.trace).filter (Event.touches own) =
        ((exchanges.filter (Exchange.isOn p)).flatMap Exchange.trace).filter
          (Event.touches own) := by
  induction plans generalizing x y exchanges with
  | nil =>
    obtain ⟨rfl, rfl⟩ := Prod.mk.inj (Option.some.inj hrun)
    exact ⟨y, rfl, h, rfl⟩
  | cons plan rest ih =>
    obtain ⟨hfirst, hothers⟩ := List.forall_mem_cons.1 hplans
    rw [List.flatMap_cons]
    cases plan with
    | call fuel c turns =>
      obtain ⟨reply, d, t, s, later, hcall, hrest, rfl⟩ := interleave_call_iff.1 hrun
      rcases hfirst with hc | hc
      · obtain ⟨d', s', hcall', hsame⟩ := h.call_own hpart hp hown hc hcall
        obtain ⟨y', hrest', hend, htouches⟩ := ih hsame hothers hrest
        have hon : Exchange.isOn p ⟨c, reply, t⟩ = true := by simpa [Exchange.isOn] using hc
        refine ⟨y', ?_, hend, ?_⟩
        · rw [Plan.only, if_pos hc, List.filter_cons_of_pos hon]
          exact interleave_call_iff.2 ⟨reply, d', t, s', _, hcall', hrest', rfl⟩
        · rw [List.filter_cons_of_pos hon, List.flatMap_cons, List.flatMap_cons,
            List.filter_append, List.filter_append, htouches]
      · obtain ⟨hkeeps, s', hsame, hcontrols⟩ := h.call_other hpart hq hforeign hne hc hcall
        obtain ⟨y', hrest', hend, htouches⟩ := ih hsame hothers hrest
        have hother : c.port? ≠ some p := fun hcp => hne (Option.some.inj (hc.symm.trans hcp))
        have hoff : ¬ Exchange.isOn p ⟨c, reply, t⟩ = true := by simpa [Exchange.isOn] using hother
        refine ⟨y', ?_, hend, ?_⟩
        · rw [Plan.only, if_neg hother, List.filter_cons_of_neg hoff, hcontrols]
          exact hrest'
        · rw [List.filter_cons_of_neg hoff, List.flatMap_cons, List.filter_append,
            Event.filter_touches_of_disjoint hdisjoint hkeeps, List.nil_append, htouches]
    | control k =>
      obtain ⟨s, hoperate, hrest⟩ := interleave_control_iff.1 hrun
      cases hk : mine k with
      | true =>
        obtain ⟨s', hoperate', hparts⟩ := hpart.control k hk x.bus y.bus s h.parts hoperate
        obtain ⟨y', hrest', hend⟩ :=
          ih (x := ⟨x.driver, s⟩) (y := ⟨y.driver, s'⟩) ⟨h.drivers, hparts⟩ hothers hrest
        refine ⟨y', ?_, hend⟩
        rw [Plan.only, if_pos hk]
        exact interleave_control_iff.2 ⟨s', hoperate', hrest'⟩
      | false =>
        have hparts : view y.bus = view s := h.parts.trans (hpart.others k hk x.bus s hoperate).symm
        obtain ⟨y', hrest', hend⟩ := ih (x := ⟨x.driver, s⟩) ⟨h.drivers, hparts⟩ hothers hrest
        refine ⟨y', ?_, hend⟩
        rw [Plan.only, if_neg (by simp [hk])]
        exact hrest'

end Session.SameFor

/-- **Ports do not disturb each other.** If a part of the device alone answers the addresses of one
port, then the calls on that port are answered the same, access it the same, and leave it and the
receive cache the same, when all that is done on a port at other addresses, and to the rest of the
device, is left out. -/
theorem port_isolated {plans : List (Plan κ)} {exchanges : List Exchange}
    {x x' : Session σ slots} (hp : x.driver.ports.resolve p = some baseA)
    (hq : x.driver.ports.resolve q = some baseB)
    (hdisjoint : (x.driver.block baseA).addresses.Disjoint (x.driver.block baseB).addresses)
    (hpart : bus.HasPart operate (· ∈ (x.driver.block baseA).addresses)
      (· ∈ (x.driver.block baseB).addresses) mine view)
    (hplans : ∀ plan ∈ plans, plan.Calls fun c => c.port? = some p ∨ c.port? = some q)
    (h : Session.interleave bus operate plans x = some (exchanges, x')) :
    ∃ alone y', Session.interleave bus operate (plans.flatMap (Plan.only p mine)) x =
        some (alone, y') ∧
      alone = exchanges.filter (Exchange.isOn p) ∧
      (alone.flatMap Exchange.trace).filter (Event.touches (x.driver.block baseA).addresses) =
        (exchanges.flatMap Exchange.trace).filter
          (Event.touches (x.driver.block baseA).addresses) ∧
      view y'.bus = view x'.bus ∧ y'.driver.cacheOf p = x'.driver.cacheOf p := by
  have hne : q ≠ p := by
    rintro rfl
    obtain rfl : baseA = baseB := Option.some.inj (hp.symm.trans hq)
    have hmem := (x.driver.block baseA).location_mem_addresses .sr
    exact hdisjoint hmem hmem
  have hsame : Session.SameFor p x.driver.config x.driver.ports view x x :=
    ⟨⟨rfl, rfl, rfl, rfl, fun _ _ => rfl⟩, rfl⟩
  obtain ⟨y', hrun, hend, htouches⟩ :=
    hsame.interleave hpart hp rfl hq rfl hdisjoint hne hplans h
  exact ⟨_, y', hrun, rfl, htouches.symm, hend.parts,
    congrArg (·.getD .empty) (hend.drivers.caches _ rfl)⟩

/-- Two blocks side by side. The transmitter of the second one stalls, and a text sent there times
out while characters arrive at the first; one of these is read while a character arrives at the
second, and the other after the first transmitter has stalled as well. -/
theorem port_isolated_stalled :
    ∃ (plans : List (Plan (Bench.Control ⊕ Bench.Control))) (exchanges : List Exchange)
      (x x' : Session (Bench × Bench) 2),
      x.driver.ports.resolve ⟨0⟩ = some 0x1000 ∧ x.driver.ports.resolve ⟨1⟩ = some 0x2000 ∧
      (x.driver.block 0x1000).addresses.Disjoint (x.driver.block 0x2000).addresses ∧
      (Bus.beside (· < 0x2000) Bench.bus Bench.bus).HasPart
        (besideControls Bench.control Bench.control)
        (· ∈ (x.driver.block 0x1000).addresses) (· ∈ (x.driver.block 0x2000).addresses)
        Sum.isLeft Prod.fst ∧
      (∀ plan ∈ plans, plan.Calls fun c => c.port? = some ⟨0⟩ ∨ c.port? = some ⟨1⟩) ∧
      Session.interleave (Bus.beside (· < 0x2000) Bench.bus Bench.bus)
        (besideControls Bench.control Bench.control) plans x = some (exchanges, x') ∧
      exchanges.map (fun e => (e.reply.bytes, e.reply.cause?)) =
        [([], some .timeout), ([0x61], none), ([], some .timeout), ([0x62], none)] ∧
      ∃ alone y', Session.interleave (Bus.beside (· < 0x2000) Bench.bus Bench.bus)
          (besideControls Bench.control Bench.control)
          (plans.flatMap (Plan.only ⟨0⟩ Sum.isLeft)) x = some (alone, y') ∧
        alone = exchanges.filter (Exchange.isOn ⟨0⟩) ∧
        (alone.flatMap Exchange.trace).filter (Event.touches (x.driver.block 0x1000).addresses) =
          (exchanges.flatMap Exchange.trace).filter
            (Event.touches (x.driver.block 0x1000).addresses) ∧
        y'.bus.1 = x'.bus.1 ∧ y'.driver.cacheOf ⟨0⟩ = x'.driver.cacheOf ⟨0⟩ := by
  let plans : List (Plan (Bench.Control ⊕ Bench.Control)) :=
    [.control (.inr (.stallAfter 1)),
      .call 0 (.write ⟨1⟩ [0x31, 0x32, 0x33, 0x34, 0x35, 0x36, 0x37, 0x38])
        (.replicate 5 .driver ++ [.control (.inl (.receive [0x61, 0x62]))] ++ .replicate 6 .driver),
      .call 0 (.getChar ⟨0⟩ false)
        (.replicate 2 .driver ++ [.control (.inr (.receive [0x7a]))] ++ .replicate 5 .driver),
      .control (.inl (.stallAfter 0)), .call 0 (.putChar ⟨0⟩ 0x63) (.replicate 4 .driver),
      .call 0 (.getChar ⟨0⟩ false) []]
  let driver : Driver 2 :=
    { config := { Config.standard with poll := .budget 2 }
      ports := ⟨[0x1000, 0x2000], Nat.le_refl 2⟩
      caches := .replicate 2 .empty }
  let x : Session (Bench × Bench) 2 := ⟨driver, .new 0x1000 .blsp, .new 0x2000 .blsp⟩
  have hdisjoint : (x.driver.block 0x1000).addresses.Disjoint
      (x.driver.block 0x2000).addresses := by
    have hmem : ∀ a ∈ (x.driver.block 0x1000).addresses, a ∉ (x.driver.block 0x2000).addresses :=
      List.forall_mem_map.2 (by decide)
    exact fun a ha => hmem a ha
  have hpart : (Bus.beside (· < 0x2000) Bench.bus Bench.bus).HasPart
      (besideControls Bench.control Bench.control) (· ∈ (x.driver.block 0x1000).addresses)
      (· ∈ (x.driver.block 0x2000).addresses) Sum.isLeft Prod.fst :=
    Bus.hasPart_beside (List.forall_mem_map.2 (by decide)) (List.forall_mem_map.2 (by decide))
  have hplans : ∀ plan ∈ plans, plan.Calls fun c => c.port? = some ⟨0⟩ ∨ c.port? = some ⟨1⟩ := by
    simp [plans, Plan.Calls, Call.port?]
  have hrun : (Session.interleave (Bus.beside (· < 0x2000) Bench.bus Bench.bus)
      (besideControls Bench.control Bench.control) plans x).map (fun r =>
        r.1.map fun e => (e.reply.bytes, e.reply.cause?)) =
      some [([], some .timeout), ([0x61], none), ([], some .timeout), ([0x62], none)] := by
    decide +kernel
  obtain ⟨⟨exchanges, x'⟩, hinterleave, hanswers⟩ := Option.map_eq_some_iff.1 hrun
  exact ⟨plans, exchanges, x, x', rfl, rfl, hdisjoint, hpart, hplans, hinterleave, hanswers,
    port_isolated rfl rfl hdisjoint hpart hplans hinterleave⟩

end Isolation

end PolledUart
