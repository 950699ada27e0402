import LuaHost.Proofs.Neutral.Operations
import LuaHost.Proofs.Rooms.Exchange

set_option autoImplicit false

/-!
# Room that operations take

A selector's operation begins on a thread that has room for one value. At every key, before it assigns and
before it calls, it asks for what it is going to push; what is promised below stays promised, so that the guard
gives back a thread with room for one value.
-/

namespace LuaHost.Host

open Lua (M Room Thread)
open Binding (Call Program Runtime)

variable {env : Env} {L : Layout} {h : Handle} {m : Nat} {α β : Type} {F T : Thread → Prop} {R : Room → Prop} {n k low : Nat}
  {runtime : Nat}

/-- An operation that leaves all threads of a settled world ready, however it ends. -/
structure Spares (env : Env) (L : Layout) (act : H α) : Prop where
  after : ∀ w, w.Settled L → (final (act env w)).Settled L

namespace Spares

theorem bind {act : H α} {next : α → H β} (ha : Spares env L act) (k : ∀ a, Spares env L (next a)) :
    Spares env L (act >>= next) := by
  constructor
  intro w hw
  have settled := ha.after w hw
  cases e : act env w with
  | ok a w' =>
    rw [e] at settled
    rw [bind_ok e]
    exact (k a).after w' settled
  | error x w' =>
    rw [e] at settled
    rw [bind_error e]
    exact settled

theorem calm {Q : Prop} {act : H α} (ha : Calm env Q act) : Spares env L act := by
  constructor
  intro w hw
  have hact := ha.after w fun id m hm => (hw.opened m).mpr (hw.registry id m hm).2
  cases e : act env w with
  | ok a w' =>
    rw [e] at hact
    exact hact.settled hw
  | error x w' =>
    rw [e] at hact
    cases x with
    | failure f => exact hact.1.settled hw
    | signal s => exact hact.elim

theorem pure (a : α) : Spares env L (Pure.pure a : H α) := calm (Calm.pure (Q := False) a)

/-- What works on an open machine from one settled world to another. -/
theorem of_affords {act : H α} (opened : L.opened h.machine) (ha : Affords env L h Thread.Ready Thread.Ready act fun _ => Thread.Ready) :
    Spares env L act := by
  constructor
  intro w hw
  have hact := ha.after w (hw.works opened)
  cases e : act env w with
  | ok a w' =>
    rw [e] at hact
    exact hact.settled fun _ h => h
  | error x w' =>
    rw [e] at hact
    cases x with
    | failure f => exact hact.settled fun _ h => h
    | signal s => exact hact

end Spares

/-! ## Guards -/

/-- A guard gives back a thread that is ready, if its body stays above what the guard has found. -/
theorem Affords.guarded {act : H α}
    (body : ∀ low, Affords env L h (Thread.Stands low) (Thread.Holds (·.Promises low 1) low) act fun _ => Thread.Stands low) :
    Affords env L h Thread.Ready Thread.Ready (guarded runtime (some h) act) fun _ => Thread.Ready := by
  refine at_depth fun low => bind (runWith fun r => getTop r) fun depth => of_fact ?_
  rintro rfl
  exact finally_ (body low) (fun _ => runWith fun r => setTop r) (runWith fun r => setTop r)

/-- A call on a machine that is not open changes nothing. -/
theorem runWith_closed {w : World} (c : Runtime → Call) (f : Value → α) (hn : ∀ r, c r ≠ .newState) (hc : ∀ r, c r ≠ .close)
    (ok : ∀ r, checkArguments (c r) = .ok ()) (closed : ¬ w.Open h.machine) :
    runWith runtime (some h) (fun r => .ask (c r) fun v => .done (f v)) env w = .error (.signal (.fault .closedHandle)) w := by
  rw [runWith_call, execute_closed _ (hn _) (hc _) (ok _) closed]

theorem Spares.guarded {act : H α} (body : ∀ low, Affords env L (.main m) (Thread.Stands low) (Thread.Holds (·.Promises low 1) low)
    act fun _ => Thread.Stands low) : Spares env L (guarded runtime (some (.main m)) act) := by
  by_cases opened : L.opened m
  · exact of_affords opened (.guarded body)
  · constructor
    intro w hw
    have closed : ¬ w.Open m := fun there => opened ((hw.opened m).mp there)
    have looked : runWith runtime (some (.main m)) (fun _ => Binding.Api.getTop) env w =
        .error (.signal (.fault .closedHandle)) w :=
      runWith_closed (h := .main m) (fun _ => .getTop) id (fun _ => nofun) (fun _ => nofun) (fun _ => rfl) closed
    change (final ((runWith runtime (some (.main m)) (fun _ => Binding.Api.getTop) >>= _) env w)).Settled L
    rw [bind_error looked]
    exact hw

/-- A value lies above what was there. If `Q` holds, a key has been looked up and its value has room beside it. -/
abbrev Reaches (low : Nat) (Q : Prop) (k : Nat) : Thread → Prop :=
  Thread.Holds (fun r => r.Promises low 1 ∧ (Q → r.Promises (k - 1) 2)) k

/-- A value with room beside it has room for a copy. -/
theorem room_of_reached {r : Room} (above : low < k) (beside : r.Promises (k - 1) 2) : r.Promises k 1 := by
  have there := Room.Promises.deeper (k := 1) (n := 1) beside
  rwa [Nat.sub_add_cancel (Nat.lt_of_le_of_lt (Nat.zero_le _) above)] at there

namespace Selector

variable {s : Selector} (hm : s.machine = some m) (agrees : L.Agrees s.registry (some m)) (sparing : env.Sparing L)

include hm agrees sparing

/-- Looking up a key takes no value away: what it gives comes on top of the table. -/
theorem pushEntry_affords (key : Value) (above : low ≤ k) (hR : ∀ r, R r → r.Promises low 1) (keeps : Room.Keeps k R) :
    Affords env L (.main m) (Thread.Stands low) (Thread.Holds R k) (s.pushEntry key) fun found th =>
      if found.isSome then th.Holds (fun r => r.Promises low 1 ∧ r.Promises k 4) (k + 1) else th.Stands low := by
  unfold pushEntry
  rw [handle_eq hm]
  have stands (j : Nat) (th : Thread) (h : th.Holds (fun r => r.Promises low 1 ∧ r.Promises k 4) (k + j)) : th.Stands low :=
    h.stands (fun r hr => hr.1) (Nat.le_trans above (Nat.le_add_right k j))
  have room (j : Nat) (fits : j + 1 ≤ 4) (r : Room) (hr : r.Promises low 1 ∧ r.Promises k 4) : r.Promises (k + j) 1 :=
    (hr.2.weaken fits).deeper
  refine .bind (.discard (.runWith fun r => .checkStack r 4 keeps)) fun _ =>
    .pre (T := Thread.Holds (fun r => r.Promises low 1 ∧ r.Promises k 4) k) (fun th h => h.imp fun r hr => ⟨hR r hr.1, hr.2⟩) ?_
  refine .bind (.pushChunk agrees _ (room 0 (by decide)) (stands 0) (stands 1)) fun loaded => ?_
  split
  · exact .pure fun th h => stands 1 th h
  refine .bind (.runWith fun r => .pushValue r (room 1 (by decide)) _) fun _ =>
    .bind (.pushHost (room 2 (by decide)) (stands 2) _ _) fun _ =>
    .bind (.runWith fun r => .pcall r sparing (n := k) (k := 2) (room 0 (by decide)) (room 0 (by decide))
      fun r e hr => ⟨hr.1.fill, hr.2.fill⟩) fun status => .of_exists fun j => ?_
  refine .pre (T := fun th => Thread.Holds (fun r => r.Promises low 1 ∧ r.Promises k 4) (k + 1) th) ?_ ?_
  · rintro th ⟨-, one, holds⟩
    obtain rfl | rfl := one (by decide)
    · exact holds.imp fun r hr => hr.1
    · exact holds.imp fun r hr => hr.1
  refine .bind (.calm (Calm.runtime (Q := False) _) False.elim) fun rt => ?_
  split
  · exact .bind (.reportTop _ _ (stands 1)) fun _ => .pure fun th h => stands 1 th h
  · exact .bind (.runWith fun r => .type r _) fun tag => .pure fun th h => h

/-- Below the value that a way leads to lies all that was there, and another value at least. -/
theorem pushKeys_affords (keys : List Value) {tag : Int} {Q : Prop} (above : low < k) (ends : tag ≠ 5 → Q) :
    Affords env L (.main m) (Thread.Stands low)
      (Thread.Holds (fun r => r.Promises low 1 ∧ (Q → r.Promises (k - 1) 3)) k) (s.pushKeys tag keys) fun found th =>
      if found.isSome then ∃ k, low < k ∧ Reaches low (Q ∨ keys ≠ []) k th else th.Stands low := by
  induction keys generalizing tag Q k with
  | nil =>
    refine .pure fun th h => ⟨k, above, h.imp fun r hr => ⟨hr.1, fun hl => ?_⟩⟩
    exact (hr.2 (hl.resolve_right fun h => h rfl)).weaken (by decide)
  | cons key rest ih =>
    unfold pushKeys
    split
    · next scalar =>
      have hl := ends (by simpa using scalar)
      have deeper (r : Room) (hr : r.Promises low 1 ∧ (Q → r.Promises (k - 1) 3)) : r.Promises k 2 := by
        have there := Room.Promises.deeper (k := 1) (n := 2) (hr.2 hl)
        rwa [Nat.sub_add_cancel (Nat.lt_of_le_of_lt (Nat.zero_le _) above)] at there
      rw [handle_eq hm]
      refine .bind (.runWith fun r => .pushNil r fun r hr => (deeper r hr).weaken (by decide)) fun _ => .pure fun th h => ?_
      exact ⟨k + 1, Nat.lt_succ_of_lt above, h.imp fun r hr => ⟨hr.1, fun _ => deeper r hr⟩⟩
    · have keeps : Room.Keeps k fun r => r.Promises low 1 ∧ (Q → r.Promises (k - 1) 3) := fun r n hr =>
        ⟨⟨hr.1.grant (Nat.le_of_lt above), fun hl => (hr.2 hl).grant (Nat.sub_le _ _)⟩, hr.1.lose, fun hl => (hr.2 hl).lose⟩
      refine .bind (pushEntry_affords hm agrees sparing key (Nat.le_of_lt above) (fun r hr => hr.1) keeps) fun found => ?_
      cases found with
      | none => exact .pure fun _ h => h
      | some tag =>
        refine ((ih (Q := True) (Nat.lt_succ_of_lt above) fun _ => trivial).conseq (fun th h => ?_) (fun _ h => h) fun found th h => ?_)
        · exact Thread.Holds.imp h fun r hr => ⟨hr.1, fun _ => hr.2.weaken (by decide)⟩
        · cases found with
          | none => exact h
          | some tag =>
            obtain ⟨k, above, reaches⟩ := h
            exact ⟨k, above, reaches.imp fun r hr => ⟨hr.1, fun _ => hr.2 (.inl trivial)⟩⟩

theorem push_affords (keys : List Value) :
    Affords env L (.main m) (Thread.Stands low) (Thread.Holds (·.Promises low 1) low) (s.push keys) fun found th =>
      if found.isSome then ∃ k, low < k ∧ Reaches low (keys ≠ []) k th else th.Stands low := by
  unfold push
  rw [handle_eq hm]
  refine .bind (.runWith fun r => .pushGlobals r fun _ hr => hr) fun _ => ?_
  refine (pushKeys_affords hm agrees sparing keys (k := low + 1) (Q := False) (Nat.lt_succ_self low) fun h => absurd rfl h).conseq
    (fun th h => h.imp fun r hr => ⟨hr, False.elim⟩) (fun _ h => h) fun found th h => ?_
  cases found with
  | none => exact h
  | some tag =>
    obtain ⟨k, above, reaches⟩ := h
    exact ⟨k, above, reaches.imp fun r hr => ⟨hr.1, fun hk => hr.2 (.inr hk)⟩⟩

/-- What an operation does once the way has been followed. -/
theorem found_affords {keys : List Value} {next : Option Int → H α}
    (missed : Affords env L (.main m) (Thread.Stands low) (Thread.Stands low) (next none) fun _ => Thread.Stands low)
    (found : ∀ tag k, low < k → Affords env L (.main m) (Thread.Stands low) (Reaches low (keys ≠ []) k) (next (some tag)) fun _ =>
      Thread.Stands low) :
    Affords env L (.main m) (Thread.Stands low) (Thread.Holds (·.Promises low 1) low) (s.push keys >>= next) fun _ =>
      Thread.Stands low := by
  refine .bind (push_affords hm agrees sparing keys) fun reached => ?_
  cases reached with
  | none => exact missed
  | some tag => exact .of_exists fun k => .pre (fun th h => ⟨h.2, h.1⟩) (.of_fact (found tag k))

theorem exists_spares : Spares env L s.exists_ := by
  unfold exists_
  rw [hm]
  unfold guard
  rw [handle_eq hm]
  exact .guarded fun low => found_affords hm agrees sparing (.pure fun _ h => h) fun tag k above => .pure fun th h =>
    h.stands (fun r hr => hr.1) (Nat.le_of_lt above)

theorem get_spares : Spares env L s.get := by
  unfold get
  rw [hm]
  unfold guard
  rw [handle_eq hm]
  refine .guarded fun low => found_affords hm agrees sparing (.pure fun _ h => h) fun tag k above => ?_
  have stands (th : Thread) (h : Reaches low (s.chain ≠ []) k th) : th.Stands low :=
    h.stands (fun r hr => hr.1) (Nat.le_of_lt above)
  exact (Affords.toHost (fun r hr => room_of_reached above (hr.2 nofun)) stands _ _).post fun _ => stands

theorem ref_spares : Spares env L s.ref := by
  unfold ref
  rw [hm]
  unfold guard
  rw [handle_eq hm]
  refine .guarded fun low => found_affords hm agrees sparing (.pure fun _ h => h) fun tag k above => ?_
  obtain ⟨k, rfl⟩ : ∃ j, k = j + 1 := ⟨k - 1, by omega⟩
  have stands (j : Nat) (there : low ≤ j) (th : Thread) (h : th.Holds (fun r => r.Promises low 1 ∧
      (s.chain ≠ [] → r.Promises (k + 1 - 1) 2)) j) : th.Stands low := h.stands (fun r hr => hr.1) there
  exact .bind (.pinTop_own agrees (fun r hr => (hr.2 nofun).weaken (by decide)) (fun r hr => room_of_reached above (hr.2 nofun))
    (stands _ (Nat.le_of_lt above))) fun id => .pure (stands k (Nat.le_of_lt_succ above))

omit agrees sparing

/-- Pushing values one after another into room that was asked for. -/
theorem pushAll_affords (vs : List Value) (above : low ≤ k) (hR : ∀ r, R r → r.Promises low 1 ∧ r.Promises k vs.length) :
    Affords env L (.main m) (Thread.Stands low) (Thread.Holds R k) (s.pushAll vs) fun _ => Thread.Holds R (k + vs.length) := by
  induction vs generalizing k with
  | nil => exact .pure fun _ h => h
  | cons v rest ih =>
    unfold pushAll
    rw [handle_eq hm]
    rw [List.length_cons, Nat.add_comm rest.length] at hR ⊢
    have later := ih (k := k + 1) (Nat.le_succ_of_le above) fun r hr => ⟨(hR r hr).1, (hR r hr).2.deeper⟩
    rw [Nat.add_assoc] at later
    exact .bind (.pushHost (fun r hr => (hR r hr).2.weaken (Nat.le_add_right _ _))
      (fun _ h => h.stands (fun r hr => (hR r hr).1) above) _ _) fun _ => later

/-- Converting results takes no room in the end. -/
theorem results_affords (n : Nat) (i : Int) (above : low ≤ k) (hR : ∀ r, R r → r.Promises low 1 ∧ r.Promises k 1) :
    Affords env L (.main m) (Thread.Stands low) (Thread.Holds R k) (s.results n i) fun _ => Thread.Holds R k := by
  induction n generalizing i with
  | zero => exact .pure fun _ h => h
  | succ n ih =>
    unfold results
    rw [handle_eq hm]
    exact .bind (.toHost (fun r hr => (hR r hr).2) (fun _ h => h.stands (fun r hr => (hR r hr).1) above) _ _) fun v =>
      .bind (ih _) fun vs => .pure fun _ h => h

include agrees sparing

theorem call_spares (args : List Value) : Spares env L (s.call args) := by
  unfold call
  rw [hm]
  unfold guard
  rw [handle_eq hm]
  refine .bind (.calm (Calm.runtime (Q := False) _)) fun rt => .guarded fun low =>
    found_affords hm agrees sparing (.pure fun _ h => h) fun tag k above => ?_
  obtain ⟨k, rfl⟩ : ∃ j, k = j + 1 := ⟨k - 1, by omega⟩
  replace above : low ≤ k := Nat.le_of_lt_succ above
  -- What lies below the function, what is above it, and the arguments all have room.
  let R (r : Room) : Prop := r.Promises low 1 ∧ r.Promises k 2 ∧ r.Promises (k + 1) (args.length + 1)
  have asked : Affords env L (.main m) (Thread.Stands low) (Reaches low (s.chain ≠ []) (k + 1))
      (discard (runWith s.runtime (some (.main m)) fun _ => Binding.Api.checkStack (args.length + 1))) fun _ =>
        Thread.Holds R (k + 1) := by
    refine (Affords.discard (.runWith fun r => .checkStack r (args.length + 1) ?_)).post fun _ th h => h.imp fun r hr => ?_
    · exact fun r n hr => ⟨⟨hr.1.grant (Nat.le_succ_of_le above), fun hc => (hr.2 hc).grant (Nat.le_succ k)⟩, hr.1.lose, fun hc => (hr.2 hc).lose⟩
    · exact ⟨hr.1.1, hr.1.2 nofun, hr.2⟩
  refine .bind asked fun _ => .bind (.runWith fun r => .getTop r) fun top => .of_fact fun _ => ?_
  refine .bind (pushAll_affords hm args (Nat.le_succ_of_le above) fun r hr => ⟨hr.1, hr.2.2.weaken (Nat.le_succ _)⟩) fun _ => ?_
  rw [Nat.add_right_comm]
  refine .bind (.runWith fun r => .pcall r sparing (fun r hr => hr.2.1.weaken (by decide)) (fun r hr => hr.2.1.weaken (by decide))
    fun r e hr => ⟨hr.1.fill, hr.2.1.fill, hr.2.2.fill⟩) fun status => .of_exists fun j => ?_
  have beside (r : Room) (hr : R r ∧ (Binding.allResults < 0 → r.Promises k 2 → r.Promises (k + j) 1)) :
      r.Promises low 1 ∧ r.Promises (k + j) 1 := ⟨hr.1.1, hr.2 (by decide) hr.1.2.1⟩
  have stands (th : Thread) (h : th.Holds (fun r => R r ∧ (Binding.allResults < 0 → r.Promises k 2 → r.Promises (k + j) 1)) (k + j)) :
      th.Stands low := h.stands (fun r hr => hr.1.1) (Nat.le_trans above (Nat.le_add_right k j))
  refine .pre (fun _ h => h.2.2) ?_
  dsimp only
  split
  · exact .bind (.reportTop _ _ stands) fun _ => .pure stands
  · exact .bind (.runWith fun r => .getTop r) fun top => .of_fact fun _ =>
      .bind (results_affords hm _ _ (Nat.le_trans above (Nat.le_add_right k j)) beside) fun vs => .pure stands

theorem set_spares (v : Value) : Spares env L (s.set v) := by
  unfold set
  rw [hm]
  unfold guard
  rw [handle_eq hm]
  refine .bind (.calm (Calm.runtime (Q := False) _)) fun rt => .guarded fun low =>
    found_affords hm agrees sparing (.pure fun _ h => h) fun tag k above => ?_
  have lies (j : Nat) (R : Room → Prop) (hR : ∀ r, R r → r.Promises low 1) (th : Thread) (h : th.Holds R (k + j)) : th.Stands low :=
    h.stands hR (Nat.le_trans (Nat.le_of_lt above) (Nat.le_add_right k j))
  have reached (th : Thread) (h : Reaches low (s.chain.dropLast ≠ []) k th) : th.Stands low := lies 0 _ (fun r hr => hr.1) th h
  dsimp only
  split
  · exact .bind (.calm (Calm.get (Q := False)) False.elim) fun w => .bind (.calm (Calm.ofExcept _) fun _ => reached) fun way =>
      .bind (.runWith fun r => .typeName r _ reached) fun kind => .bind (.calm (Calm.report _ _ _ _) fun _ => reached) fun _ =>
        .pure reached
  let R (r : Room) : Prop := r.Promises low 1 ∧ r.Promises k 4
  have stands (j : Nat) : ∀ th, Thread.Holds R (k + j) th → th.Stands low := lies j R fun r hr => hr.1
  have room (j : Nat) (fits : j + 1 ≤ 4) (r : Room) (hr : R r) : r.Promises (k + j) 1 := (hr.2.weaken fits).deeper
  have asked : Affords env L (.main m) (Thread.Stands low) (Reaches low (s.chain.dropLast ≠ []) k)
      (discard (runWith s.runtime (some (.main m)) fun _ => Binding.Api.checkStack 4)) fun _ => Thread.Holds R k := by
    refine (Affords.discard (.runWith fun r => .checkStack r 4 ?_)).post fun _ th h => h.imp fun r hr => ⟨hr.1.1, hr.2⟩
    exact fun r n hr => ⟨⟨hr.1.grant (Nat.le_of_lt above), fun hc => (hr.2 hc).grant (Nat.sub_le _ _)⟩, hr.1.lose, fun hc => (hr.2 hc).lose⟩
  refine .bind asked fun _ => .bind (.pushChunk agrees _ (room 0 (by decide)) (stands 0) (stands 1)) fun loaded => ?_
  split
  · exact .pure (stands 1)
  refine .bind (.runWith fun r => .pushValue r (room 1 (by decide)) _) fun _ =>
    .bind (.pushHost (room 2 (by decide)) (stands 2) _ _) fun _ => .bind (.pushHost (room 3 (by decide)) (stands 3) _ _) fun _ =>
    .bind (.runWith fun r => .pcall r sparing (n := k) (k := 3) (room 0 (by decide)) (fun r hr => hr.2.weaken (by decide))
      fun r e hr => ⟨hr.1.fill, hr.2.fill⟩) fun status => .of_exists fun j => ?_
  have ended : ∀ th, Thread.Holds R (k + j) th → th.Stands low := lies j R fun r hr => hr.1
  refine .pre (T := Thread.Holds R (k + j)) (fun _ h => h.2.2.imp fun r hr => hr.1) ?_
  split
  · exact .bind (.reportTop _ _ ended) fun _ => .pure ended
  · exact .pure ended

end Selector

/-- Running a source takes the room of one value before it makes its own. -/
theorem State.execute_spares {s : State} (hm : s.machine = some m) (sparing : env.Sparing L) (source : Value) :
    Spares env L (s.execute source) := by
  unfold execute
  rw [hm, handle_eq hm]
  refine .bind (.calm (Calm.runtime (Q := False) _)) fun rt => .guarded fun low => ?_
  have stands (R : Room → Prop) (hR : ∀ r, R r → r.Promises low 1) (j : Nat) (th : Thread) (h : th.Holds R (low + j)) : th.Stands low :=
    h.stands hR (Nat.le_add_right low j)
  have ran (r : Runtime) : Affords env L (.main m) (Thread.Stands low) (Thread.Holds (·.Promises low 1) low)
      (runProgram r (some (.main m)) (Binding.Api.doString r source)) fun _ th => ∃ j, th.Holds (·.Promises low 1) (low + j) := by
    unfold Binding.Api.doString
    refine .andThen (.loadString r (fun _ hr => hr) (stands _ (fun _ hr => hr) 0) _) fun status => ?_
    split
    · exact .pure fun th h => ⟨1, h⟩
    · refine (Affords.pcall r sparing (n := low) (k := 0) (fun _ hr => hr) (fun r hr => hr.weaken (by decide)) fun r e hr => hr.fill).post ?_
      exact fun _ th ⟨j, _, _, h⟩ => ⟨j, h.imp fun r hr => hr.1⟩
  refine .bind (.runWith ran) fun status => .of_exists fun j => ?_
  dsimp only
  split
  · exact .bind (.reportTop _ _ (stands _ (fun _ hr => hr) j)) fun _ => .pure (stands _ (fun _ hr => hr) j)
  · exact .pure (stands _ (fun _ hr => hr) j)

end LuaHost.Host
