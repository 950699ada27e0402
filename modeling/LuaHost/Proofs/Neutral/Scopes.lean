import LuaHost.Host.Scope

set_option autoImplicit false

/-!
# Guards within guards

How a body ends is a matter of its text alone: `outcome` reads it off, without a stack. What it does to
the stack is bounded by the smallest depth that the stack has on the way: what lies below that depth
stays, through every guard the body opens, because a guard cuts or fills up above it.
-/

namespace LuaHost.Host

namespace Guard

theorem take_setTop {depth d : Nat} {stack : List Value} (hd : d ≤ depth) (hs : d ≤ stack.length) :
    (setTop depth stack).take d = stack.take d := by
  rw [setTop, List.take_append_of_le_length (by rw [List.length_take]; omega), List.take_take,
    Nat.min_eq_left hd]

theorem leave_enter_live {handle : Value} (live : handle.truthy = true) (before after : List Value) :
    (enter handle before).leave after = setTop before.length after := by simp [enter, leave, live]

theorem leave_enter_inert {handle : Value} (inert : handle.truthy = false) (before after : List Value) :
    (enter handle before).leave after = after := by simp [enter, leave, inert]

theorem take_leave_enter {handle : Value} {d : Nat} {before after : List Value} (hb : d ≤ before.length)
    (ha : d ≤ after.length) : ((enter handle before).leave after).take d = after.take d := by
  cases live : handle.truthy with
  | true => rw [leave_enter_live live, take_setTop hb ha]
  | false => rw [leave_enter_inert live]

end Guard

namespace Ending

/-- What a guard lets out of the way its body ended: a failure, and nothing else. -/
def outward : Ending → Ending
  | .failed f => .failed f
  | _ => .finished

end Ending

mutual

/-- How an action ends. -/
def Act.outcome : Act → Ending
  | .push _ | .pop _ | .attempt _ _ => .finished
  | .guard _ body => (outcome body).outward
  | .raise f => .failed f
  | .leave => .left

/-- How a body ends: in the way of the first action that does not just finish. -/
def outcome : List Act → Ending
  | [] => .finished
  | a :: rest =>
    match a.outcome with
    | .finished => outcome rest
    | e => e

end

namespace Scope

theorem closed_ending (g : Guard) (s : Scope) : (s.closed g).ending = s.ending.outward := by
  unfold closed
  cases s.ending <;> rfl

theorem closed_stack (g : Guard) (s : Scope) : (s.closed g).stack = g.leave s.stack := rfl

theorem next_ending (s : Scope) (name : String) : (s.next (·.did name)).ending = s.ending := by
  unfold next
  split <;> rfl

theorem next_stack (s : Scope) (name : String) : (s.next (·.did name)).stack = s.stack := by
  unfold next
  split <;> rfl

theorem guarded_eq (s : Scope) (handle : Value) (body : List Act) :
    s.guarded handle body = closed (.enter handle s.stack) ((s.opened (.enter handle s.stack)).run body) := by
  rw [guarded]

theorem attempt_stack (s : Scope) (handle : Value) (body : List Act) :
    (s.act (.attempt handle body)).stack = (s.guarded handle body).stack := by
  rw [act]
  cases (s.guarded handle body).ending <;> rfl

theorem guard_stack (s : Scope) (handle : Value) (body : List Act) :
    (s.act (.guard handle body)).stack = (s.guarded handle body).stack := by rw [act, next_stack]

/-- A guarded body whose failure ends never fails, and its failure is written down as it was raised. -/
theorem attempt_ending (s : Scope) (handle : Value) (body : List Act) :
    (s.act (.attempt handle body)).ending = .finished := by
  have outward : (s.guarded handle body).ending.outward = (s.guarded handle body).ending := by
    rw [guarded_eq, closed_ending]
    cases ((s.opened (.enter handle s.stack)).run body).ending <;> rfl
  rw [act]
  cases h : (s.guarded handle body).ending with
  | finished => exact h
  | left => rw [h] at outward; cases outward
  | failed f => rfl

mutual

theorem act_ending (s : Scope) (going : s.ending = .finished) : (a : Act) → (s.act a).ending = a.outcome
  | .push _ => by rw [act, Act.outcome]; exact going
  | .pop _ => by rw [act, Act.outcome]; exact going
  | .guard handle body => by
    rw [act, next_ending, guarded_eq, closed_ending, run_ending (s.opened _) going body, Act.outcome]
  | .attempt handle body => by rw [attempt_ending, Act.outcome]
  | .raise f => by rw [act, Act.outcome]
  | .leave => by rw [act, Act.outcome]

theorem run_ending (s : Scope) (going : s.ending = .finished) : (body : List Act) → (s.run body).ending = outcome body
  | [] => by rw [run, outcome, going]
  | a :: rest => by
    have one := act_ending s going a
    rw [run, outcome, ← one]
    cases h : (s.act a).ending with
    | finished => exact run_ending _ h rest
    | left | failed f => exact h

end

theorem guarded_ending {s : Scope} (going : s.ending = .finished) (handle : Value) (body : List Act) :
    (s.guarded handle body).ending = (outcome body).outward := by
  rw [guarded_eq, closed_ending, run_ending (s.opened _) going]

mutual

/-- The stacks that a body passes while it is within an action. -/
def within (s : Scope) : Act → List (List Value)
  | .guard handle body | .attempt handle body => (s.opened (.enter handle s.stack)).passed body
  | _ => []

/-- The stacks that a body passes, from the one it finds to the one it leaves. -/
def passed (s : Scope) : List Act → List (List Value)
  | [] => [s.stack]
  | a :: rest =>
    s.stack :: (s.within a ++
      match (s.act a).ending with
      | .finished => (s.act a).passed rest
      | _ => [(s.act a).stack])

end

/-- The smallest depth of the stack while a body runs. -/
def lowest (s : Scope) (body : List Act) : Nat :=
  ((s.passed body).map List.length).foldr min s.stack.length

theorem foldr_min_le (ns : List Nat) (n : Nat) : ns.foldr min n ≤ n ∧ ∀ i ∈ ns, ns.foldr min n ≤ i := by
  induction ns with
  | nil => simp
  | cons i ns ih =>
    refine ⟨Nat.le_trans (Nat.min_le_right _ _) ih.1, fun j hj => ?_⟩
    cases hj with
    | head => exact Nat.min_le_left _ _
    | tail _ hj => exact Nat.le_trans (Nat.min_le_right _ _) (ih.2 j hj)

theorem lowest_le {s : Scope} {body : List Act} {stack : List Value} (h : stack ∈ s.passed body) :
    s.lowest body ≤ stack.length := (foldr_min_le _ _).2 _ (List.mem_map_of_mem h)

theorem start_passed (s : Scope) (body : List Act) : s.stack ∈ s.passed body := by
  cases body <;> simp [passed]

theorem act_passed (s : Scope) (a : Act) (rest : List Act) : (s.act a).stack ∈ s.passed (a :: rest) := by
  rw [passed]
  refine List.mem_cons_of_mem _ (List.mem_append_right _ ?_)
  split
  · exact start_passed _ rest
  · exact List.mem_singleton_self _

theorem end_passed (s : Scope) (body : List Act) : (s.run body).stack ∈ s.passed body := by
  induction body generalizing s with
  | nil => simp [run, passed]
  | cons a rest ih =>
    rw [run, passed]
    refine List.mem_cons_of_mem _ (List.mem_append_right _ ?_)
    cases (s.act a).ending with
    | finished => exact ih (s.act a)
    | left | failed f => exact List.mem_singleton_self _

/-- What a guard leaves below a depth that its body never goes below is what it found there. -/
theorem guarded_take {s : Scope} {handle : Value} {body : List Act} {d : Nat}
    (deep : ∀ stack ∈ (s.opened (.enter handle s.stack)).passed body, d ≤ stack.length)
    (kept : ((s.opened (.enter handle s.stack)).run body).stack.take d = s.stack.take d) :
    (s.guarded handle body).stack.take d = s.stack.take d := by
  have found : d ≤ s.stack.length := deep _ (start_passed (s.opened _) body)
  rw [guarded_eq, closed_stack, Guard.take_leave_enter found (deep _ (end_passed _ body)), kept]

mutual

theorem act_take (s : Scope) (d : Nat) (hs : d ≤ s.stack.length) : (a : Act) → (ha : d ≤ (s.act a).stack.length) →
    (deep : ∀ stack ∈ s.within a, d ≤ stack.length) → (s.act a).stack.take d = s.stack.take d
  | .push vs, _, _ => by
    rw [act]
    exact List.take_append_of_le_length hs
  | .pop n, ha, _ => by
    rw [act] at ha ⊢
    change d ≤ (s.stack.take (s.stack.length - n)).length at ha
    change (s.stack.take (s.stack.length - n)).take d = _
    rw [List.length_take] at ha
    rw [List.take_take, Nat.min_eq_left (Nat.le_trans ha (Nat.min_le_left _ _))]
  | .guard handle body, _, deep => by
    rw [within] at deep
    rw [guard_stack]
    exact guarded_take deep (run_take (s.opened _) d body deep)
  | .attempt handle body, _, deep => by
    rw [within] at deep
    rw [attempt_stack]
    exact guarded_take deep (run_take (s.opened _) d body deep)
  | .raise f, _, _ => by rw [act]
  | .leave, _, _ => by rw [act]

theorem run_take (s : Scope) (d : Nat) : (body : List Act) → (deep : ∀ stack ∈ s.passed body, d ≤ stack.length) →
    (s.run body).stack.take d = s.stack.take d
  | [], _ => by rw [run]
  | a :: rest, deep => by
    have one : (s.act a).stack.take d = s.stack.take d :=
      act_take s d (deep _ (start_passed s _)) a (deep _ (act_passed s a rest)) fun stack h => deep stack (by
        rw [passed]
        exact List.mem_cons_of_mem _ (List.mem_append_left _ h))
    rw [passed] at deep
    rw [run]
    cases h : (s.act a).ending with
    | finished =>
      rw [h] at deep
      exact (run_take _ d rest fun stack hm => deep stack (List.mem_cons_of_mem _ (List.mem_append_right _ hm))).trans one
    | left | failed f => exact one

end

/-- A guard on a live handle gives back the depth it noted, by cutting off or filling up the stack that its
body leaves, and every position the body never goes below is as it was. A guard on no handle notes no
depth and lets the stack be. However deep the guards are nested, a failure that nothing within catches comes
out as it was raised, and leaving a body ends that body only. -/
theorem guards_nest (s : Scope) (going : s.ending = .finished) (handle : Value) (body : List Act) :
    let guard := Guard.enter handle s.stack
    let inside := (s.opened guard).run body
    let outside := s.guarded handle body
    let lowest := (s.opened guard).lowest body
    (handle.truthy = true →
      guard.depth = some s.stack.length ∧
      outside.stack.length = s.stack.length ∧
      outside.stack = Guard.setTop s.stack.length inside.stack ∧
      (∀ i < lowest, outside.stack[i]? = s.stack[i]?) ∧
      (s.stack.length ≤ lowest → outside.stack = s.stack)) ∧
    (handle.truthy = false → guard.depth = none ∧ outside.stack = inside.stack) ∧
    inside.ending = outcome body ∧ outside.ending = (outcome body).outward := by
  intro guard inside outside lowest
  have shape : outside = closed guard inside := guarded_eq s handle body
  have kept : outside.stack.take lowest = s.stack.take lowest := by
    have deep : ∀ stack ∈ (s.opened guard).passed body, lowest ≤ stack.length := fun stack => lowest_le
    exact guarded_take deep (run_take _ lowest body deep)
  refine ⟨fun live => ?_, fun inert => ?_, run_ending (s.opened guard) going body, guarded_ending going handle body⟩
  · have restored : outside.stack = Guard.setTop s.stack.length inside.stack := by
      rw [shape, closed_stack, Guard.leave_enter_live live]
    have length : outside.stack.length = s.stack.length := by rw [restored, Guard.length_setTop]
    refine ⟨by simp [guard, Guard.enter, live], length, restored, fun i hi => ?_, fun deep => ?_⟩
    · rw [← List.getElem?_take_of_lt hi, kept, List.getElem?_take_of_lt hi]
    · rwa [List.take_of_length_le (length ▸ deep), List.take_of_length_le deep] at kept
  · exact ⟨by simp [guard, Guard.enter, inert], by rw [shape, closed_stack, Guard.leave_enter_inert inert]⟩

/-- A guard that does nothing pops below the depth of the guard around it, which a failure then leaves: what
was popped is filled up with nil. -/
theorem guards_nest_below :
    let s : Scope := ⟨[.int 1, .int 2], [], .finished⟩
    let body : List Act := [.push [.int 3], .guard .none [.pop 2], .raise (.value "boom")]
    s.ending = .finished ∧ (Value.int 7).truthy = true ∧
      (s.guarded (.int 7) body).stack = [.int 1, .none] ∧ (s.guarded (.int 7) body).ending = .failed (.value "boom") := by
  intro s body
  obtain ⟨live, -, -, ending⟩ := guards_nest s rfl (.int 7) body
  obtain ⟨-, -, restored, -⟩ := live rfl
  refine ⟨rfl, rfl, restored.trans ?_, ending.trans ?_⟩
  · simp [s, body, Guard.setTop, Guard.enter, Guard.leave, run, act, guarded, closed, next, opened, onStack, did,
      Value.truthy]
  · simp [body, outcome, Act.outcome, Ending.outward]

end Scope
end LuaHost.Host
