import LuaHost.Proofs.Frame.Machine
import LuaHost.Proofs.Rooms.Threads

set_option autoImplicit false

/-!
# Room that the stack interface takes

What each operation on the stack of a thread needs of its room, and what is promised afterwards. Where an
operation may end by a fault, the thread is ready then.
-/

namespace LuaHost.Lua.Covers

variable {σ α β : Type} {H : σ → Prop} {t : Nat} {T : Thread → Prop} {R : Room → Prop} {n k low : Nat}

/-- What `contents` gives is the stack. -/
theorem contents {next : Array Value → M σ β} {V : β → Thread → Prop}
    (h : ∀ vs, Covers H t (fun th => T th ∧ th.stack = vs) (next vs) V) : Covers H t T (Stack.contents t >>= next) V :=
  ⟨fun s hs => (h (s.vm.threads.get t).stack).after s ⟨⟨hs.here, rfl⟩, hs.others, hs.host⟩⟩

theorem sized {next : Nat → M σ β} {V : β → Thread → Prop} (h : Covers H t (Thread.Holds R n) (next n) V) :
    Covers H t (Thread.Holds R n) (Stack.size t >>= next) V := by
  constructor
  intro s hs
  have depth : (s.vm.threads.get t).stack.size = n := hs.here.size
  have ha := h.after s hs
  rw [← depth] at ha
  exact ha

theorem setContents {vs vs' : Array Value} (h : vs.size = n → vs'.size = k) :
    Covers H t (fun th => th.Holds R n ∧ th.stack = vs) (Stack.setContents t vs' : M σ Unit) fun _ => Thread.Holds R k :=
  modifyThread fun _ hth => hth.1.restack (h (hth.2 ▸ hth.1.size))

theorem push (v : Value) (hR : ∀ r, R r → r.Promises n 1) :
    Covers H t (Thread.Holds R n) (Stack.push t v : M σ Unit) fun _ => Thread.Holds R (n + 1) :=
  modifyThread fun _ h => h.push (fun r hr => Room.allows_iff.mpr (hR r hr)) v

theorem pushAll (vs : List Value) (hR : ∀ r, R r → r.Promises n vs.length) :
    Covers H t (Thread.Holds R n) (Stack.pushAll t vs : M σ Unit) fun _ => Thread.Holds R (n + vs.length) := by
  unfold Stack.pushAll
  induction vs generalizing n with
  | nil => exact .pure fun _ h => h
  | cons v rest ih =>
    rw [List.length_cons, Nat.add_comm rest.length] at hR ⊢
    have later := ih fun r hr => (hR r hr).deeper
    rw [Nat.add_assoc] at later
    exact .bind (push v fun r hr => (hR r hr).weaken (Nat.le_add_right _ _)) fun _ => later

theorem popAll (k : Nat) : Covers H t (Thread.Holds R n) (Stack.popAll t k : M σ (List Value)) fun _ => Thread.Holds R (n - k) :=
  contents fun vs => .bind (setContents fun size => by simp [size]) fun _ => .pure fun _ h => h

theorem pop : Covers H t (Thread.Holds R (n + 1)) (Stack.pop t : M σ Value) fun _ => Thread.Holds R n :=
  contents fun vs => .bind (setContents fun size => by simp [size]) fun _ => .pure fun _ h => h

/-- A request promises what it asks for, or nothing is promised any more. -/
theorem checkRoom {asked : Nat} {i : Int} (keeps : Room.Keeps n R) :
    Covers H t (Thread.Holds R n) (Stack.checkRoom t asked i : M σ Bool) fun _ =>
      Thread.Holds (fun r => R r ∧ r.Promises n asked) n := by
  unfold Stack.checkRoom
  refine read_bind .generation fun g => sized (.bind (modifyThread fun th h => ?_) fun _ => .pure fun _ h => h)
  obtain ⟨granted, lost⟩ := keeps _ (n + i).toNat h.room
  split
  · next fits =>
    obtain ⟨-, rfl⟩ := decide_eq_true_iff.mp (by simpa using fits)
    refine ⟨h.covered, Nat.le_trans h.least (Nat.le_max_left _ _), h.size, granted, .inr ?_⟩
    exact Nat.le_max_right _ _
  · exact ⟨h.covered, h.least, h.size, lost, .inl (Room.lapsed_lose _ _)⟩

theorem size_resize (vs : Array Value) (n : Nat) : (Stack.resize vs n).size = n := by
  unfold Stack.resize
  split
  · next fits => rw [Array.size_shrink, Nat.min_eq_left fits]
  · next short => rw [Array.size_append, Array.size_replicate, Nat.add_sub_cancel' (Nat.le_of_not_le short)]

/-- Going back to a depth at which there was room. A depth for which the interface has no number is cut, and
nothing is promised then. -/
theorem setTop {i : Int} (h : i = low ∨ Room.beyond ≤ low) :
    Covers H t (Thread.Stands low) (Stack.setTop t low i : M σ Unit) fun _ => Thread.Ready := by
  have far (beyond : Room.beyond ≤ low) (th : Thread) (h : th.Stands low) : th.Ready :=
    ⟨h.covered, h.least, Room.allows_iff.mpr (.inl (Room.lapsed_iff.mpr (.inl (Nat.le_trans beyond h.above))))⟩
  unfold Stack.setTop
  refine contents fun vs => ?_
  by_cases same : i = low
  · subst same
    rw [if_pos (Int.natCast_nonneg low), if_neg (Int.not_lt.mpr (Int.natCast_nonneg low))]
    refine modifyThread fun th h => ⟨h.1.covered, by simpa using h.1.least, ?_⟩
    have depth : (Stack.resize vs (low : Int).toNat).size = low := size_resize vs low
    dsimp only
    rw [depth, if_pos rfl]
    exact Room.allows_iff.mpr h.1.room
  · have beyond := h.resolve_left same
    have cut (n : Int) : Covers H t (fun th => th.Stands low ∧ th.stack = vs) (M.modifyThread t fun th =>
        { th with stack := Stack.resize vs n.toNat, room := th.room.lose 0 } : M σ Unit) fun _ => Thread.Ready :=
      modifyThread fun th h => ⟨h.1.covered, h.1.least,
        Room.allows_iff.mpr (.inl (Room.lapsed_mono (Room.lapsed_lose _ 0) (Nat.zero_le _)))⟩
    have missed : Covers H t (fun th => th.Stands low ∧ th.stack = vs) (M.fault .badIndex : M σ PUnit) fun _ th =>
        th.Stands low ∧ th.stack = vs := .fault _ fun th h => far beyond th h.1
    simp only [if_neg same]
    generalize (if 0 ≤ i then i else vs.size + i + 1) = n
    split
    · exact .bind missed fun _ => cut n
    · exact cut n

/-- Reading a number as a text changes it in place. -/
theorem text? (i : Int) : Covers H t (Thread.Holds R n) (Stack.text? t i : M σ (Option ByteArray)) fun _ => Thread.Holds R n := by
  unfold Stack.text?
  refine read_bind .generation fun g => contents fun vs => read_bind (.value t i) fun v => ?_
  split
  · exact .pure fun _ h => h.1
  · split
    · exact .pure fun _ h => h.1
    · exact .bind (setContents fun size => by rw [Array.size_setIfInBounds, size]) fun _ => .pure fun _ h => h
    · exact .pure fun _ h => h.1

theorem tableAt (i : Int) (hT : ∀ th, T th → th.Ready) : Covers H t T (Stack.tableAt t i : M σ Nat) fun _ => T := by
  unfold Stack.tableAt
  refine read_bind (.value t i) fun v => ?_
  split
  · exact .pure fun _ h => h
  · exact .fault _ hT

/-- A chunk's function, or the words of its fault, takes the room of one value. -/
theorem loadText (source : ByteArray) (hR : ∀ r, R r → r.Promises n 1) :
    Covers H t (Thread.Holds R n) (Stack.loadText t source : M σ Status) fun _ => Thread.Holds R (n + 1) := by
  have compiled (globals : Value) : Within (.still σ) (M.load source source globals) := (M.load_tied _ _ _).within
  refine read_bind .globals fun globals => .bind (.still (compiled globals) fun th h => h.ready hR) fun r => ?_
  split
  · exact .bind (push _ hR) fun _ => .pure fun _ h => h
  · exact .bind (push _ hR) fun _ => .pure fun _ h => h

theorem setRegistryEntry (n : Int64) (v : Value) : Covers H t T (Stack.setRegistryEntry n v : M σ Unit) fun _ => T :=
  read_bind .vm fun _ => aside _ fun _ => rfl

theorem registryEntry_bind (n : Int64) {next : Value → M σ β} {V : β → Thread → Prop} (h : ∀ v, Covers H t T (next v) V) :
    Covers H t T (Stack.registryEntry n >>= next) V :=
  read_bind (.bind .vm fun _ => .bind (.table _) fun _ => .pure _) h

theorem freeSlot : Covers H t T (Stack.freeSlot : M σ Int64) fun _ => T := by
  unfold Stack.freeSlot
  refine read_bind .generation fun g => registryEntry_bind _ fun head => ?_
  split
  · split
    · exact .bind (setRegistryEntry _ _) fun _ => .pure fun _ h => h
    · exact .pure fun _ h => h
  · exact .pure fun _ h => h

theorem occupy (v : Value) (free : Int64) (hT : ∀ th, T th → th.Ready) :
    Covers H t T (Stack.occupy v free : M σ Int) fun _ => T := by
  unfold Stack.occupy
  split
  · refine read_bind .vm fun vm => read_bind (.table _) fun table => ?_
    dsimp only
    split
    · exact .bind (.fault (U := fun _ => T) _ hT) fun _ => .bind (setRegistryEntry _ _) fun _ => .pure fun _ h => h
    · exact .bind (setRegistryEntry _ _) fun _ => .pure fun _ h => h
  · exact read_bind .generation fun g => registryEntry_bind _ fun next => .bind (setRegistryEntry _ _) fun _ =>
      .bind (setRegistryEntry _ _) fun _ => .pure fun _ h => h

theorem pin (hR : ∀ r, R r → r.Promises n 1) :
    Covers H t (Thread.Holds R (n + 1)) (Stack.pin t : M σ Int) fun _ => Thread.Holds R n := by
  unfold Stack.pin
  refine .bind pop fun v => ?_
  split
  · exact .pure fun _ h => h
  · exact .bind freeSlot fun free => occupy v free fun th h => h.ready hR

/-- The results of a call: as many as were asked for had room, or all fill it. -/
theorem leaveResults {results : Option Nat} (vs : List Value) (hR : ∀ j, results = some j → ∀ r, R r → r.Promises n j)
    (fills : ∀ r e, R r → R (r.fill e)) :
    Covers H t (Thread.Holds R n) (Stack.leaveResults t results vs : M σ Unit) fun _ th =>
      ∃ j, (∀ asked, results = some asked → j = asked) ∧
        th.Holds (fun r => R r ∧ (results = none → r.Promises (n + j) 1)) (n + j) := by
  unfold Stack.leaveResults
  cases results with
  | some asked =>
    have pushed := pushAll (H := H) (t := t) (R := R) (n := n) (adjust asked vs)
    rw [length_adjust] at pushed
    refine (pushed (hR asked rfl)).conseq (fun _ h => h) fun _ th h => ?_
    exact ⟨asked, fun _ h => Option.some.inj h, h.imp fun _ hr => ⟨hr, nofun⟩⟩
  | none =>
    have filled : Covers H t (Thread.Holds R n) (M.modifyThread t fun th =>
        { th with room := th.room.fill (th.stack.size + vs.length) } : M σ Unit) fun _ =>
          Thread.Holds (fun r => R r ∧ r.Promises n vs.length ∧ r.Promises (n + vs.length) 1) n := by
      refine modifyThread fun th h => ⟨h.covered, Nat.le_trans h.least (Room.count_le_fill _ _), h.size, fills _ _ h.room, ?_⟩
      rw [h.size]
      exact ⟨.inr (Room.le_count_fill _ _), Room.promises_fill _ _⟩
    refine .bind filled fun _ => (pushAll vs fun r hr => hr.2.1).conseq (fun _ h => h) fun _ th h => ?_
    exact ⟨vs.length, nofun, h.imp fun _ hr => ⟨hr.1, fun _ => hr.2.2⟩⟩

/-- What keeps threads ready and gives thread `t` its stack and room back may run on that thread if it is
ready. -/
theorem run {act : M σ α} (ready : Within (.ready H) act) (steady : Within (.steady σ t) act) (hR : ∀ r, R r → r.Promises n 1) :
    Covers H t (Thread.Holds R n) (Stack.onThread t act) fun _ => Thread.Holds R n := by
  constructor
  intro s hs
  have asked : s.vm.Ready ∧ H s.host := ⟨hs.ready fun th h => h.ready hR, hs.host⟩
  have turn (running : Nat) (s' : Sys σ) (h : s'.vm.Ready ∧ H s'.host)
      (same : (s'.vm.threads.get t).stack = (s.vm.threads.get t).stack ∧
        (s'.vm.threads.get t).room = (s.vm.threads.get t).room) :
      Sys.Around H t (Thread.Holds R n) { s' with vm := { s'.vm with running } } :=
    ⟨⟨(h.1 t).covered, (h.1 t).least, same.1 ▸ hs.here.size, same.2 ▸ hs.here.room⟩, fun u _ => h.1 u, h.2⟩
  by_cases here : s.vm.running = t
  · have ran : Stack.onThread t act s = act s := by
      unfold Stack.onThread
      simp only [M.vm, Bind.bind, EStateM.bind, here, beq_self_eq_true, if_true]
    have kept := steady.after s
    have stays := ready.after s
    rw [ran]
    cases e : act s with
    | ok a s' =>
      rw [e] at kept stays
      exact turn s'.vm.running s' (stays asked) (kept here).2
    | error x s' =>
      rw [e] at stays
      exact stays.1 asked
  · have kept := steady.after { s with vm := { s.vm with running := t } }
    have stays := ready.after { s with vm := { s.vm with running := t } }
    cases e : act { s with vm := { s.vm with running := t } } with
    | ok a s' =>
      rw [e] at kept stays
      have ran : Stack.onThread t act s = .ok a { s' with vm := { s'.vm with running := s.vm.running } } := by
        simp only [Stack.onThread, M.vm, Bind.bind, EStateM.bind, beq_iff_eq, here, if_false, M.modifyVm, e]
      rw [ran]
      exact turn s.vm.running s' (stays asked) (kept rfl).2
    | error x s' =>
      rw [e] at stays
      have ran : Stack.onThread t act s = .error x { s' with vm := { s'.vm with running := s.vm.running } } := by
        simp only [Stack.onThread, M.vm, Bind.bind, EStateM.bind, beq_iff_eq, here, if_false, M.modifyVm, e]
      rw [ran]
      exact stays.1 asked

/-- A protected call takes its function and the arguments, and leaves the results or one error. -/
theorem protectedCall {run : Machine → M σ Outcome} {results : Option Nat} (handler : Option Value)
    (ready : ∀ m, Within (.ready H) (run m)) (below : ∀ r, R r → r.Promises n 1)
    (hR : ∀ j, results = some j → ∀ r, R r → r.Promises n j) (fills : ∀ r e, R r → R (r.fill e)) :
    Covers H t (Thread.Holds R (n + k + 1)) (Stack.protectedCall run t k results handler) fun status th =>
      ∃ j, (status ≠ .ok → j = 1) ∧ (∀ asked, results = some asked → j = asked ∨ j = 1) ∧
        th.Holds (fun r => R r ∧ (results = none → r.Promises n 2 → r.Promises (n + j) 1)) (n + j) := by
  unfold Stack.protectedCall
  have called (f : Value) (args : List Value) :=
    Covers.run (H := H) (t := t) (R := R) (n := n)
      (Stack.attempt_tied (Machine.nested_tied (fun m => (ready m).tied) (some handler) f args)).within
      (Stack.attempt_steady (Machine.nested_steady run (some handler) f args t)) below
  refine .bind (popAll k) fun args => .bind (U := fun _ => Thread.Holds R n) ?_ fun f => .bind (called f args) fun r => ?_
  · rw [Nat.add_right_comm, Nat.add_sub_cancel]
    exact pop
  · cases r with
    | done vs =>
      refine .bind (leaveResults vs hR fills) fun _ => .pure fun th h => ?_
      obtain ⟨j, exactly, holds⟩ := h
      exact ⟨j, fun h => absurd rfl h, fun asked h => .inl (exactly asked h), holds.imp fun _ hr => ⟨hr.1, fun all _ => hr.2 all⟩⟩
    | failed status v =>
      refine .bind (push v below) fun _ => .pure fun th h => ?_
      exact ⟨1, fun _ => rfl, fun _ _ => .inr rfl, h.imp fun r hr => ⟨hr, fun _ two => two.deeper (k := 1)⟩⟩

end LuaHost.Lua.Covers
