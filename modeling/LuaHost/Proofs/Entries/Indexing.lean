import LuaHost.Proofs.Entries.Machines

set_option autoImplicit false

/-!
# Indexing with metamethods

The index chunk does for any value what the language says of `t[k]`: through tables and metatables it finds the
value at the key, or a function that is called for it, or that there is nothing to index. All that it adds is a
frame, which gives the first of what comes of that.
-/

namespace LuaHost.Lua

variable {σ : Type}

namespace Reads

theorem metatable? (v : Value) : Reads (M.metatable? v : M σ (Option Nat)) := by
  unfold M.metatable?
  split
  · exact bind (table _) fun _ => pure _
  · exact bind vm fun _ => pure _
  · exact bind vm fun _ => pure _
  · exact pure _

theorem metamethod (v : Value) (event : String) : Reads (M.metamethod v event : M σ Value) := by
  unfold M.metamethod
  refine bind (metatable? v) fun mt => ?_
  split
  · exact bind (table _) fun _ => pure _
  · exact pure _

/-- Passing through metatables changes nothing. -/
theorem access (fuel : Nat) (obj key : Value) : Reads (M.access fuel obj key : M σ Access) := by
  induction fuel generalizing obj with
  | zero => exact pure _
  | succ fuel ih =>
    have follow (mm : Value) : Reads (if isFunction mm then Pure.pure (.call mm [obj, key]) else M.access fuel mm key : M σ Access) := by
      split
      · exact pure _
      · exact ih mm
    unfold M.access
    split
    · refine bind (table _) fun t => ?_
      split
      · split
        · exact pure _
        · refine bind (table _) fun mt => ?_
          split
          · exact pure _
          · exact follow _
      · exact pure _
    · refine bind (metamethod _ _) fun mm => ?_
      split
      · exact pure _
      · exact follow _

theorem typeNameOf (v : Value) : Reads (M.typeNameOf v : M σ ByteArray) := by
  unfold M.typeNameOf
  refine bind generation fun g => ?_
  split
  · split
    · refine bind (metamethod _ _) fun name => ?_
      split
      · exact pure _
      · exact pure _
    · refine bind (metamethod _ _) fun name => ?_
      split
      · exact pure _
      · exact pure _
    · exact pure _
  · exact pure _

theorem typeError (action : String) (v : Value) (origin : Option Origin) : Reads (M.typeError action v origin : M σ ByteArray) := by
  unfold M.typeError
  refine bind generation fun g => bind (typeNameOf v) fun name => ?_
  split
  · exact pure _
  · split
    · exact pure _
    · exact pure _

end Reads

/-- A function that indexes its first argument by its second: what it is, what it has captured, the name of its chunk, and
the line of the index and the name of what is indexed. -/
structure Site where
  f : Func
  cells : Array Nat
  chunk : ByteArray
  line : Nat
  name : ByteArray

namespace Machine

variable {natives : Natives σ} {m : Machine} {s : Sys σ}

/-- The machine in a site that was called by `m`, while it awaits what is at the key. -/
def awaiting (site : Site) (activation : Activation) (m : Machine) : Machine :=
  { m with
    activation
    konts := .evalLast [] false :: .returnAll :: .blockEnd 0 site.f.body :: .callReturn (.native m.activation) :: m.konts }

/-- What `obj[key]` comes to: the value that is found, or the first of what a function gives that is called for it, or
an error. -/
def indexed (natives : Natives σ) (fuel : Nat) (site : Site) (m : Machine) (obj key : Value) : M σ Outcome := do
  let g ← M.generation
  let fails (message : ByteArray) : M σ Outcome :=
    throw (.unwinding .errRun (.str (ChunkName.place g m.activation.chunk site.line ++ message)))
  match ← M.access (M.chainLimit g) obj key with
  | .value v => return .returned [v]
  | .call f args =>
    run natives fuel { m with ctl := .apply f args (m.callerAt site.line (some ⟨"metamethod", bytesOf "index"⟩)) }
  | .noIndex v =>
    let origin := if v.rawEquals obj then (Expr.localVar 0 site.name).heldOrigin? g else none
    fails (← M.typeError "index" v origin)
  | .loops => fails (bytesOf (M.chainMessage g "__index"))

/-- What comes of a call of a site for a value and a key. -/
def lookUp (natives : Natives σ) (fuel : Nat) (site : Site) (obj key : Value) (m : Machine) : M σ Outcome := do
  let a ← bind ⟨site.cells, #[], [obj, key], site.chunk, 1, m.activation.natives⟩ [obj, key]
  indexed natives fuel site (awaiting site a m) obj key

/-- A site gives the first of the values that it awaits. -/
theorem awaiting_returns (site : Site) (a : Activation) {stack : Array Value} {saved : Option Value} {konts : List Kont}
    (h : m.konts = .nativeStart stack saved :: konts) (vs : List Value) (fuel : Nat) :
    run natives (fuel + 4) { awaiting site a m with ctl := .values vs } s = .ok (.returned [first vs]) s := by
  have returns : Reaches natives 3 { awaiting site a m with ctl := .values vs } s
      ⟨m.thread, m.activation, .values [first vs], .nativeStart stack saved :: konts⟩ s := by
    refine .next (fun _ => rfl) ?_
    refine .next (fun _ => rfl) ?_
    refine .next (fun _ => rfl) ?_
    rw [← h]
    exact .refl _ _
  rw [returns.run (fuel + 1)]
  rfl

section Raising

variable (message : ByteArray) (quiet : (s.vm.threads.get m.thread).handler = none)

include quiet

/-- An error that nothing between awaits ends the run. -/
theorem awaiting_raises (site : Site) (a : Activation) {stack : Array Value} {saved : Option Value} {konts : List Kont}
    (h : m.konts = .nativeStart stack saved :: konts) (fuel : Nat) :
    run natives (fuel + 2) { awaiting site a m with ctl := .raise (.str message) .errRun } s =
      .error (.unwinding .errRun (.str message)) s := by
  have unwinds (services : Services σ) : step natives services { awaiting site a m with ctl := .raise (.str message) .errRun } s =
      .ok (.inl { awaiting site a m with ctl := .unwind (.str message) .errRun }) s := by
    change stepRaise _ _ _ _ = _
    unfold stepRaise
    change (M.thread m.thread >>= _ : M σ _) s = _
    simp only [M.thread, Bind.bind, EStateM.bind, quiet]
    rfl
  refine Reaches.fails (.next unwinds (.refl _ _)) (fun _ => ?_) fuel
  have nearest : unwindTo (awaiting site a m).activation (awaiting site a m).konts =
      (m.activation, some (.nativeStart stack saved), konts) := by
    change unwindTo m.activation m.konts = _
    rw [h]
    rfl
  change stepUnwind { awaiting site a m with ctl := .unwind (.str message) .errRun } (.str message) .errRun s = _
  unfold stepUnwind
  simp only [nearest]
  rfl

end Raising

/-- The step of a site that looks the key up, with all that follows from it. -/
theorem run_indexed (site : Site) (a : Activation) {stack : Array Value} {saved : Option Value} {konts : List Kont}
    (h : m.konts = .nativeStart stack saved :: konts) (quiet : (s.vm.threads.get m.thread).handler = none) (n₁ : ByteArray) (obj key : Value)
    (fuel : Nat) :
    run natives (fuel + 5) { awaiting site a m with
        ctl := .values [key], konts := .indexApply obj (.localVar 0 site.name) (.localVar 1 n₁) site.line :: (awaiting site a m).konts } s =
      indexed natives (fuel + 4) site (awaiting site a m) obj key s := by
  let frame := awaiting site a m
  let origin : Option Origin := (Expr.localVar 0 site.name).heldOrigin? s.vm.generation
  have stepped (services : Services σ) : step natives services { frame with
        ctl := .values [key], konts := .indexApply obj (.localVar 0 site.name) (.localVar 1 n₁) site.line :: frame.konts } s =
      indexWith { frame with ctl := .values [key] } obj key site.line origin [] s := rfl
  obtain ⟨r, found⟩ := (Reads.access (M.chainLimit s.vm.generation) obj key).after s
  have raises (message : ByteArray)
      (failed : indexWith { frame with ctl := .values [key] } obj key site.line origin [] s =
        .ok (.inl { frame with ctl := .raise (.str (ChunkName.place s.vm.generation a.chunk site.line ++ message)) .errRun }) s) :
      run natives (fuel + 5) { frame with
        ctl := .values [key], konts := .indexApply obj (.localVar 0 site.name) (.localVar 1 n₁) site.line :: frame.konts } s =
      .error (.unwinding .errRun (.str (ChunkName.place s.vm.generation a.chunk site.line ++ message))) s := by
    rw [run_next ((stepped _).trans failed)]
    exact awaiting_raises _ quiet site a h (fuel + 2)
  unfold indexed
  simp only [M.generation, Bind.bind, EStateM.bind, found]
  cases r with
  | value v =>
    have given : indexWith { frame with ctl := .values [key] } obj key site.line origin [] s = .ok (.inl { frame with ctl := .values [v] }) s := by
      unfold indexWith
      simp only [M.generation, Bind.bind, EStateM.bind, found]
      rfl
    rw [run_next ((stepped _).trans given)]
    exact awaiting_returns site a h [v] fuel
  | call f args =>
    have called : indexWith { frame with ctl := .values [key] } obj key site.line origin [] s =
        .ok (.inl { frame with ctl := .apply f args (frame.callerAt site.line (some ⟨"metamethod", bytesOf "index"⟩)) }) s := by
      unfold indexWith
      simp only [M.generation, Bind.bind, EStateM.bind, found]
      rfl
    exact run_next ((stepped _).trans called)
  | noIndex v =>
    obtain ⟨message, worded⟩ := (Reads.typeError "index" v (if v.rawEquals obj then origin else none)).after s
    have failed : indexWith { frame with ctl := .values [key] } obj key site.line origin [] s =
        .ok (.inl { frame with ctl := .raise (.str (ChunkName.place s.vm.generation a.chunk site.line ++ message)) .errRun }) s := by
      unfold indexWith
      simp only [M.generation, Bind.bind, EStateM.bind, found, worded]
      rfl
    rw [raises message failed]
    have words : M.typeError "index" v (if v.rawEquals obj then (Expr.localVar 0 site.name).heldOrigin? s.vm.generation else none) s =
        .ok message s := worded
    simp only [EStateM.bind, words]
    rfl
  | loops =>
    have failed : indexWith { frame with ctl := .values [key] } obj key site.line origin [] s =
        .ok (.inl { frame with ctl := .raise (.str (ChunkName.place s.vm.generation a.chunk site.line ++
          bytesOf (M.chainMessage s.vm.generation "__index"))) .errRun }) s := by
      unfold indexWith
      simp only [M.generation, Bind.bind, EStateM.bind, found]
      rfl
    rw [raises _ failed]
    rfl

/-- A call of the index chunk from outside looks the key up. -/
theorem run_lookUp {f : Func} {address : Nat} {cells : Array Nat} {chunk n₀ n₁ : ByteArray} {l₀ l₁ : Nat} {base : Activation}
    (hf : f.Names 2 (indexing n₀ n₁ l₀ l₁)) (hc : s.vm.closures.get address = .lua f cells chunk) (hd : base.depth = 0) (t : Nat)
    (quiet : (s.vm.threads.get t).handler = none) (stack : Array Value) (saved : Option Value) (konts : List Kont) (obj key : Value) (fuel : Nat) :
    run natives (fuel + 18) ⟨t, base, .apply (.closure address) [obj, key] (.native base), .nativeStart stack saved :: konts⟩ s =
      lookUp natives (fuel + 4) ⟨f, cells, chunk, l₀, n₀⟩ obj key
        ⟨t, base, .apply (.closure address) [obj, key] (.native base), .nativeStart stack saved :: konts⟩ s := by
  obtain ⟨a, pool, held, bound, called⟩ := reaches_last natives t base base (.nativeStart stack saved :: konts) hf [obj, key] hc hd
  have keyed := reaches_keyed natives t (s := { s with vm := { s.vm with cells := pool } })
    (.blockEnd 0 f.body :: .callReturn (.native base) :: .nativeStart stack saved :: konts) held n₀ n₁ l₀ l₁
  rw [(called.trans keyed).run (fuel + 5)]
  refine (run_indexed (s := { s with vm := { s.vm with cells := pool } })
    (m := ⟨t, base, .apply (.closure address) [obj, key] (.native base), .nativeStart stack saved :: konts⟩) ⟨f, cells, chunk, l₀, n₀⟩ a
    rfl quiet n₁ obj key fuel).trans ?_
  unfold lookUp
  simp only [Bind.bind, EStateM.bind]
  rw [show bind ⟨cells, #[], [obj, key], chunk, 1, base.natives⟩ [obj, key] s = _ from bound]

end Machine
end LuaHost.Lua
