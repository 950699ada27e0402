import LuaHost.Proofs.Links.Stack

set_option autoImplicit false

/-!
# Frames of the machine

A frame is a link of a system with itself, which ties a program to itself if the program keeps to the
frame. So whatever holds of every link says that the machine is within every frame, but for what stores
into the registry's table: setting an entry of it, pinning and unpinning.
-/

namespace LuaHost.Lua

variable {σ α β : Type}

namespace Link

/-- The link of what keeps to a frame with itself. -/
def ofFrame (F : Frame σ) : Link σ σ where
  ties act act' := act = act' ∧ Within F act
  quiet _ h := ⟨rfl, ⟨fun s => F.quiet s _ (h s.vm)⟩⟩
  raise e he := by
    refine ⟨rfl, ⟨fun s => ⟨F.refl s, ?_⟩⟩⟩
    cases e with
    | error status v => exact F.error status v
    | unwinding status v => exact F.unwinding status v
    | fault f => exact F.fault f fun h => he (h ▸ rfl)
  after := by
    rintro α β act _ ok ok' error error' ⟨rfl, h⟩ k e
    have thrown {x : Signal} (hx : F.ends x) {γ : Type} : (throw x : M σ γ) = throw x ∧ Within F (throw x : M σ γ) :=
      ⟨rfl, ⟨fun s => ⟨F.refl s, hx⟩⟩⟩
    refine ⟨funext fun s => ?_, ⟨fun s => ?_⟩⟩
    · unfold M.outcome
      refine h.outcome s (fun a t _ => ?_) fun x t _ hx => ?_
      · exact congrFun (k a).1 t
      · exact congrFun (e x (thrown hx)).1 t
    · unfold M.outcome
      refine h.outcome s (fun a t ht => ?_) fun x t ht hx => ?_
      · exact ((k a).2.after t).of_rel ht
      · exact ((e x (thrown hx)).2.after t).of_rel ht

variable {F : Frame σ}

instance ofFrame_threaded [F.Threaded] : (ofFrame F).Threaded :=
  ⟨fun _ h => ⟨rfl, ⟨fun s => Frame.Threaded.own s _ (h s.vm)⟩⟩⟩

theorem ofFrame_files (files : σ → LuaHost.Files) : (ofFrame F).Files files files := ⟨rfl, ⟨fun s => F.refl s⟩⟩

end Link

variable {F : Frame σ}

theorem Tied.within {act act' : M σ α} (h : Tied (.ofFrame F) act act') : Within F act := h.holds.2

theorem Within.tied {act : M σ α} (h : Within F act) : Tied (.ofFrame F) act act := ⟨rfl, h⟩

theorem Services.Within.serves {services : Services σ} (h : services.Within F) : (Link.ofFrame F).Serves services services where
  call f args := (h.call f args).tied
  callPlain f args := (h.callPlain f args).tied
  resume co args := (h.resume co args).tied

theorem Link.Serves.eq {services services' : Services σ} (h : (Link.ofFrame F).Serves services services') :
    services = services' := by
  cases services with
  | mk call callPlain resume =>
    cases services' with
    | mk call' callPlain' resume' =>
      have hc : call = call' := funext fun f => funext fun args => (h.call f args).holds.1
      have hp : callPlain = callPlain' := funext fun f => funext fun args => (h.callPlain f args).holds.1
      have hr : resume = resume' := funext fun co => funext fun args => (h.resume co args).holds.1
      rw [hc, hp, hr]

theorem Link.Serves.within {services services' : Services σ} (h : (Link.ofFrame F).Serves services services') :
    services.Within F where
  call f args := (h.call f args).within
  callPlain f args := (h.callPlain f args).within
  resume co args := (h.resume co args).within

theorem Natives.Within.natives {natives : Natives σ} (h : natives.Within F) :
    (Link.ofFrame F).Natives natives natives := by
  intro services services' hs f upvalues args
  cases hs.eq
  exact (h services hs.within f upvalues args).tied

theorem Packages.loaded_within : Within F (Packages.loaded) := Packages.loaded_tied.within

theorem M.getEntry_within {services : Services σ} (hc : ∀ f args, Within F (services.call f args)) (obj : Value)
    (key : Value) : Within F (M.getEntry services obj key) :=
  (M.getEntry_tied (fun f args => (hc f args).tied) obj key).within

theorem M.setEntry_within {services : Services σ} (hc : ∀ f args, Within F (services.call f args)) (obj : Value)
    (key : Value) (value : Value) : Within F (M.setEntry services obj key value) :=
  (M.setEntry_tied (fun f args => (hc f args).tied) obj key value).within

section

variable {call : Value → List Value → M σ (List Value)} (hl : ∀ f args, Within F (call f args))

include hl

theorem M.collect_within : Within F (M.collect call) := (M.collect_tied fun f args => (hl f args).tied).within

theorem M.finalizeAll_within : Within F (M.finalizeAll call) := (M.finalizeAll_tied fun f args => (hl f args).tied).within

end

variable [F.Threaded]

section

variable {run : Machine → M σ Outcome} (hr : ∀ m, Within F (run m))

include hr

theorem Machine.nested_within (handler : Option (Option Value)) (f : Value) (args : List Value) :
    Within F (Machine.nested run handler f args) := (Machine.nested_tied (fun m => (hr m).tied) handler f args).within

theorem Machine.services_within : (Machine.services run).Within F := (Machine.services_tied fun m => (hr m).tied).within

end

theorem Machine.run_within {natives : Natives σ} (hn : natives.Within F) (fuel : Nat) (m : Machine) :
    Within F (Machine.run natives fuel m) := (Machine.run_tied hn.natives fuel m).within

theorem Stack.push_within (t : Nat) (v : Value) : Within F (Stack.push t v) := (Stack.push_tied t v).within

theorem Stack.popAll_within (t : Nat) (n : Nat) : Within F (Stack.popAll t n) := (Stack.popAll_tied t n).within

theorem Stack.tableAt_within (t : Nat) (i : Int) : Within F (Stack.tableAt t i) := (Stack.tableAt_tied t i).within

theorem Stack.onThread_within {act : M σ α} (ha : Within F act) (t : Nat) : Within F (Stack.onThread t act) :=
  (Stack.onThread_tied ha.tied t).within

theorem Stack.attempt_within {act : M σ α} (ha : Within F act) : Within F (Stack.attempt act) :=
  (Stack.attempt_tied ha.tied).within

section

variable {services : Services σ} (hs : services.Within F)

include hs

theorem Stack.require_within (t : Nat) (name : ByteArray) (opening : Value) (isGlobal : Bool) :
    Within F (Stack.require services t name opening isGlobal) :=
  (Stack.require_tied hs.serves t name opening isGlobal).within

theorem Library.apply_within (files : Base.Files σ) (f : Native) (upvalues : List Value) (args : List Value) :
    Within F (Library.apply files services f upvalues args) :=
  (Library.apply_tied hs.serves (Link.ofFrame_files files) f upvalues args).within

end

end LuaHost.Lua
