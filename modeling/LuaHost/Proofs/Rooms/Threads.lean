import LuaHost.Proofs.Neutral.Evaluation

set_option autoImplicit false

/-!
# Room on a thread

While a host works on a thread, how many values lie on its stack is known, and what is promised of its room;
all other threads are ready. A request for room that is granted promises the room; one that is refused
promises nothing from there on, and until the stack is that deep again what was promised stays promised.
-/

namespace LuaHost.Lua

variable {σ α β : Type}

namespace Room

variable {r : Room} {d e n k : Nat}

/-- A stack of this depth has room for `n` more values, if it has not lapsed. -/
def Promises (r : Room) (d n : Nat) : Prop := r.lapsed d = true ∨ d + n ≤ r.count

theorem lapsed_iff : r.lapsed d = true ↔ beyond ≤ d ∨ ∃ m, r.lapse = some m ∧ m ≤ d := by
  unfold lapsed
  rw [Bool.or_eq_true, decide_eq_true_iff, Option.any_eq_true]
  simp only [decide_eq_true_iff]

theorem lapsed_mono (h : r.lapsed d = true) (deeper : d ≤ e) : r.lapsed e = true := by
  rw [lapsed_iff] at h ⊢
  obtain far | ⟨m, lapse, at_⟩ := h
  · exact .inl (Nat.le_trans far deeper)
  · exact .inr ⟨m, lapse, Nat.le_trans at_ deeper⟩

theorem allows_iff : r.allows d = true ↔ r.Promises d 1 := by
  unfold allows Promises
  rw [Bool.or_eq_true, decide_eq_true_iff, Or.comm, Nat.succ_le_iff]

theorem Promises.allows (h : r.Promises d n) (above : d ≤ e) (below : e < d + n) : r.allows e = true := by
  rw [allows_iff]
  obtain lapsed | fits := h
  · exact .inl (lapsed_mono lapsed above)
  · exact .inr (Nat.le_trans below fits)

theorem Promises.weaken (h : r.Promises d n) (fewer : k ≤ n) : r.Promises d k :=
  h.imp_right fun fits => Nat.le_trans (Nat.add_le_add_left fewer _) fits

theorem Promises.deeper (h : r.Promises d (k + n)) : r.Promises (d + k) n :=
  h.imp (fun lapsed => lapsed_mono lapsed (Nat.le_add_right _ _)) fun fits => by omega

theorem lapsed_lose (r : Room) (d : Nat) : (r.lose d).lapsed d = true :=
  lapsed_iff.mpr (.inr ⟨_, rfl, Nat.min_le_right _ _⟩)

/-- What has lapsed at a depth stays so when more is lost. -/
theorem lapsed_lose_of (h : r.lapsed d = true) : (r.lose e).lapsed d = true := by
  obtain far | ⟨m, lapse, at_⟩ := lapsed_iff.mp h
  · exact lapsed_iff.mpr (.inl far)
  · refine lapsed_iff.mpr (.inr ⟨_, rfl, ?_⟩)
    rw [lapse, Option.getD_some]
    exact Nat.le_trans (Nat.min_le_left _ _) at_

/-- What has lapsed below the depth of a request stays so though the request is granted. -/
theorem lapsed_grant_of (h : r.lapsed d = true) (below : d ≤ e) : (r.grant e n).lapsed d = true := by
  obtain far | ⟨m, lapse, at_⟩ := lapsed_iff.mp h
  · exact lapsed_iff.mpr (.inl far)
  · refine lapsed_iff.mpr (.inr ⟨m, ?_, at_⟩)
    unfold grant
    simp only [lapse, Option.filter_some, Nat.le_trans at_ below, decide_true, if_true]

theorem Promises.lose (h : r.Promises d n) : (r.lose e).Promises d n := h.imp_left lapsed_lose_of

theorem Promises.grant (h : r.Promises d n) (below : d ≤ e) : (r.grant e k).Promises d n :=
  h.imp (fun lapsed => lapsed_grant_of lapsed below) fun fits => Nat.le_trans fits (Nat.le_max_left _ _)

theorem le_count_fill (r : Room) (e : Nat) : e ≤ (r.fill e).count := by
  unfold fill
  split
  · next fits => exact Nat.le_of_lt fits
  · exact Nat.le_refl _

theorem count_le_fill (r : Room) (e : Nat) : r.count ≤ (r.fill e).count := by
  unfold fill
  split
  · exact Nat.le_refl _
  · next full => exact Nat.not_lt.mp full

/-- Beyond results that fill the room nothing is promised. -/
theorem promises_fill (r : Room) (e : Nat) : (r.fill e).Promises e 1 := by
  unfold fill
  split
  · next fits => exact .inr fits
  · exact .inl (lapsed_lose _ _)

theorem Promises.fill (h : r.Promises d n) : (r.fill e).Promises d n := by
  refine h.imp (fun lapsed => ?_) fun fits => Nat.le_trans fits (count_le_fill r e)
  unfold Room.fill
  split
  · exact lapsed
  · exact lapsed_lose_of (r := { r with count := e }) lapsed

/-- What is promised of a room that requests at a depth do not take back. -/
def Keeps (d : Nat) (R : Room → Prop) : Prop := ∀ r n, R r → R (r.grant d n) ∧ R (r.lose d)

theorem Keeps.promises (below : e ≤ d) : Keeps d fun r => r.Promises e n := fun _ _ h => ⟨h.grant below, h.lose⟩

end Room

/-! ## Threads -/

/-- A thread on whose stack `n` values lie, all of which had room, and what holds of its room. -/
structure Thread.Holds (R : Room → Prop) (n : Nat) (th : Thread) : Prop where
  covered : th.overdrawn = false
  least : minimumRoom ≤ th.room.count
  size : th.stack.size = n
  room : R th.room

/-- A thread that was ready when `low` values lay on its stack, none of which has been taken. -/
structure Thread.Stands (low : Nat) (th : Thread) : Prop where
  covered : th.overdrawn = false
  least : minimumRoom ≤ th.room.count
  above : low ≤ th.stack.size
  room : th.room.Promises low 1

namespace Thread

variable {th : Thread} {R R' : Room → Prop} {n low : Nat}

theorem Ready.holds (h : th.Ready) : th.Holds (·.Promises th.stack.size 1) th.stack.size :=
  ⟨h.covered, h.least, rfl, Room.allows_iff.mp h.allows⟩

theorem Holds.ready (h : th.Holds R n) (hR : ∀ r, R r → r.Promises n 1) : th.Ready :=
  ⟨h.covered, h.least, by rw [h.size]; exact Room.allows_iff.mpr (hR _ h.room)⟩

theorem Holds.imp (h : th.Holds R n) (hR : ∀ r, R r → R' r) : th.Holds R' n := ⟨h.covered, h.least, h.size, hR _ h.room⟩

theorem Holds.stands (h : th.Holds R n) (hR : ∀ r, R r → r.Promises low 1) (above : low ≤ n) : th.Stands low :=
  ⟨h.covered, h.least, h.size ▸ above, hR _ h.room⟩

theorem Holds.push (h : th.Holds R n) (hR : ∀ r, R r → r.allows n = true) (v : Value) :
    Thread.Holds R (n + 1) { th with stack := th.stack.push v, overdrawn := th.overdrawn || !th.room.allows th.stack.size } := by
  refine ⟨?_, h.least, ?_, h.room⟩
  · simp only [h.covered, h.size, hR _ h.room, Bool.not_true, Bool.or_self]
  · simp only [Array.size_push, h.size]

theorem Holds.restack {k : Nat} (h : th.Holds R n) {vs : Array Value} (size : vs.size = k) :
    Thread.Holds R k { th with stack := vs } := ⟨h.covered, h.least, size, h.room⟩

end Thread

/-- A machine on thread `t` of which `T` holds; all other threads are ready, and `H` holds of the host. -/
structure Sys.Around (H : σ → Prop) (t : Nat) (T : Thread → Prop) (s : Sys σ) : Prop where
  here : T (s.vm.threads.get t)
  others : ∀ u, u ≠ t → (s.vm.threads.get u).Ready
  host : H s.host

theorem Sys.Around.ready {H : σ → Prop} {t : Nat} {T : Thread → Prop} {s : Sys σ} (h : s.Around H t T)
    (hT : ∀ th, T th → th.Ready) : s.vm.Ready := fun u => by
  by_cases hu : u = t
  · rw [hu]
    exact hT _ h.here
  · exact h.others u hu

theorem Sys.Around.of_ready {H : σ → Prop} {s : Sys σ} (ready : s.vm.Ready) (host : H s.host) (t : Nat) :
    s.Around H t Thread.Ready := ⟨ready t, fun u _ => ready u, host⟩

/-- From where `T` holds of a thread an action comes back where `U` holds of it, or ends early on a machine all
of whose threads are ready. -/
structure Covers (H : σ → Prop) (t : Nat) (T : Thread → Prop) (act : M σ α) (U : α → Thread → Prop) : Prop where
  after : ∀ s : Sys σ, s.Around H t T → match act s with
    | .ok a s' => s'.Around H t (U a)
    | .error _ s' => s'.vm.Ready ∧ H s'.host

/-- What runs keeps a machine ready all of whose threads are, and `H` of the host. -/
def Frame.ready (H : σ → Prop) : Frame σ where
  rel s s' := s.vm.Ready ∧ H s.host → s'.vm.Ready ∧ H s'.host
  ends _ := True
  refl _ h := h
  trans h k r := k (h r)
  quiet s vm h r := ⟨by unfold Vm.Ready; rw [h.threads]; exact r.1, r.2⟩
  error _ _ := trivial
  unwinding _ _ := trivial
  fault _ _ := trivial

instance (H : σ → Prop) : (Link.ofFrame (.ready H)).Running where
  own f h := ⟨rfl, ⟨fun s r => ⟨(h s.vm).ready r.1, r.2⟩⟩⟩
  visit {α β} enter act act' leave give catches he hl ha := by
    have same : act = act' := funext fun before => (ha before).1
    subst same
    refine ⟨rfl, ⟨fun s => ?_⟩⟩
    -- The state in which the visit ends is ready because the one that it left was.
    have left (r : Except Signal α) (u : Sys σ)
        (hu : (enter s.vm).Ready ∧ H s.host → u.vm.Ready ∧ H u.host) (hs : s.vm.Ready ∧ H s.host) :
        (leave s.vm r u.vm).Ready ∧ H u.host := by
      obtain ⟨ready, host⟩ := hu ⟨(he s.vm).ready hs.1, hs.2⟩
      exact ⟨(hl s.vm r u.vm).ready hs.1 ready, host⟩
    unfold M.visit
    simp only [M.vm, M.modifyVm, Bind.bind, EStateM.bind, M.outcome]
    refine (ha s.vm).2.outcome ⟨enter s.vm, s.host⟩ (fun a u hu => left (.ok a) u hu) fun e u hu _ => ?_
    dsimp only
    cases catches s.vm e with
    | some b => exact left (.error e) u hu
    | none => exact ⟨left (.error e) u hu, trivial⟩

/-- While thread `t` is asked for nothing, it and the host stay. -/
def Frame.still (σ : Type) : Frame σ where
  rel s s' := s'.vm.threads = s.vm.threads ∧ s'.host = s.host
  ends _ := True
  refl _ := ⟨rfl, rfl⟩
  trans h k := ⟨k.1.trans h.1, k.2.trans h.2⟩
  quiet _ _ h := ⟨h.threads, rfl⟩
  error _ _ := trivial
  unwinding _ _ := trivial
  fault _ _ := trivial

theorem Sys.Around.of_still {H : σ → Prop} {t : Nat} {T : Thread → Prop} {s u : Sys σ} (h : s.Around H t T)
    (threads : u.vm.threads = s.vm.threads) (host : H u.host) : u.Around H t T :=
  ⟨by rw [threads]; exact h.here, by rw [threads]; exact h.others, host⟩

namespace Covers

variable {H : σ → Prop} {t : Nat} {T T' : Thread → Prop} {U : α → Thread → Prop} {R R' : Room → Prop} {n k : Nat}

theorem pure {a : α} (h : ∀ th, T th → U a th) : Covers H t T (Pure.pure a : M σ α) U :=
  ⟨fun _ hs => ⟨h _ hs.here, hs.others, hs.host⟩⟩

theorem bind {act : M σ α} {next : α → M σ β} {V : β → Thread → Prop} (h : Covers H t T act U)
    (k : ∀ a, Covers H t (U a) (next a) V) : Covers H t T (act >>= next) V := by
  constructor
  intro s hs
  have ha := h.after s hs
  simp only [Bind.bind, EStateM.bind]
  cases e : act s with
  | ok a s' =>
    rw [e] at ha
    exact (k a).after s' ha
  | error x s' =>
    rw [e] at ha
    exact ha

theorem conseq {act : M σ α} {U' : α → Thread → Prop} (h : Covers H t T act U) (hT : ∀ th, T' th → T th)
    (hU : ∀ a th, U a th → U' a th) : Covers H t T' act U' := by
  constructor
  intro s hs
  have ha := h.after s ⟨hT _ hs.here, hs.others, hs.host⟩
  cases e : act s with
  | ok a s' =>
    rw [e] at ha
    exact ⟨hU a _ ha.here, ha.others, ha.host⟩
  | error x s' =>
    rw [e] at ha
    exact ha

/-- An action that only looks at the machine. -/
theorem read_bind {act : M σ α} {next : α → M σ β} {V : β → Thread → Prop} (h : Reads act)
    (k : ∀ a, Covers H t T (next a) V) : Covers H t T (act >>= next) V := by
  constructor
  intro s hs
  obtain ⟨a, ha⟩ := h.after s
  simp only [Bind.bind, EStateM.bind, ha]
  exact (k a).after s hs

theorem read {act : M σ α} (h : Reads act) : Covers H t T act fun _ => T := by
  constructor
  intro s hs
  obtain ⟨a, ha⟩ := h.after s
  rw [ha]
  exact hs

/-- What leaves threads and host alone may end early if the thread is ready. -/
theorem still {act : M σ α} (h : Within (.still σ) act) (hT : ∀ th, T th → th.Ready) : Covers H t T act fun _ => T := by
  constructor
  intro s hs
  refine h.outcome s (fun a s' same => ?_) fun e s' same _ => ?_
  · exact hs.of_still same.1 (same.2 ▸ hs.host)
  · have there := hs.of_still same.1 (same.2 ▸ hs.host)
    exact ⟨there.ready hT, there.host⟩

/-- A change of the machine that leaves the threads alone. -/
theorem aside (f : Vm → Vm) (h : ∀ vm : Vm, (f vm).threads = vm.threads) : Covers H t T (M.modifyVm f : M σ Unit) fun _ => T :=
  ⟨fun s hs => hs.of_still (h s.vm) hs.host⟩

theorem fault (f : Fault) (hT : ∀ th, T th → th.Ready) : Covers H t T (M.fault f : M σ α) U :=
  ⟨fun _ hs => ⟨hs.ready hT, hs.host⟩⟩

theorem modifyThread {f : Thread → Thread} (h : ∀ th, T th → T' (f th)) :
    Covers H t T (M.modifyThread t f : M σ Unit) fun _ => T' := by
  constructor
  intro s hs
  refine ⟨?_, fun u hu => ?_, hs.host⟩
  · change T' ((s.vm.threads.modify t f).get t)
    rw [Pool.get_modify_self]
    exact h _ hs.here
  · change ((s.vm.threads.modify t f).get u).Ready
    rw [Pool.get_modify_ne _ hu]
    exact hs.others u hu

end Covers
end LuaHost.Lua
