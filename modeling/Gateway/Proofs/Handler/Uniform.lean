import Gateway.Handler.Permission
import Gateway.Handler.Script
import Gateway.Handler.StaticFiles
import Gateway.Proofs.Exchange.Alike
import Gateway.Proxy.Handler
import Gateway.Router.Basic

/-! The handlers that come with the library cannot tell where the values of a request are. -/

namespace Gateway

theorem Program.uniform_consult {k : Exchange → Program} (hk : ∀ x, (k x).Uniform)
    (hmoved : ∀ x q t, k (x.relocate q t) = k x) : (consult k).Uniform := by
  refine ⟨hk, ?_⟩
  rintro x _ ⟨q, t, rfl, -⟩
  exact (hmoved x q t).symm

namespace AccessLogger

theorem uniform : program.Uniform := by
  refine Program.uniform_consult (fun _ => Program.uniform_consult (fun y => ?_) fun _ _ _ => rfl)
    fun _ _ _ => rfl
  unfold entry
  split <;> trivial

end AccessLogger

namespace Recovery

theorem uniform_release (p : Payload) : (release p).Uniform := by
  cases p <;> trivial

theorem uniform : handler.program.Uniform := by
  refine ⟨fun why => ?_, trivial⟩
  cases why with
  | panic p => exact Program.uniform_consult (fun _ => uniform_release p) fun _ _ _ => rfl
  | dropped => trivial

end Recovery

namespace RequestId

theorem uniform (g : Generator) : (program g).Uniform := by
  refine Program.uniform_consult (fun x => ?_) fun _ _ _ => rfl
  simp only []
  split
  · trivial
  · cases HeaderValue.ofText? (g.next x.world.ids) <;> trivial

end RequestId

namespace Auth

theorem uniform (verify : TokenVerifier) (o : AuthOptions) : (program verify o).Uniform := by
  refine Program.uniform_consult (fun x => ?_) fun _ _ _ => rfl
  unfold decision
  split
  · trivial
  · split <;> trivial

end Auth

namespace Permission

theorem uniform (claim : String) (required : List String) :
    (program claim required).Uniform := by
  refine ⟨fun x => ?_, fun x y h => ?_⟩
  · unfold decision
    split <;> trivial
  · simp only [decision, h.values_eq]

end Permission

namespace StaticFiles

theorem uniform (s : FileServer) (root : List String) : (program s root).Uniform := by
  refine Program.uniform_consult (fun x => ?_) fun _ _ _ => rfl
  cases delegated? s root (x.context.params.value parameter) x.context.request <;> trivial

end StaticFiles

namespace Proxy

theorem fail_uniform (e : ProxyError) : (fail e).Uniform := by cases e <;> trivial

theorem relay_uniform (r : Response) : (relay r).Uniform := trivial

theorem forward_uniform (p : Proxy) (t : Target) : (p.forward t).Uniform := by
  refine Program.uniform_consult (fun x => ?_) fun _ _ _ => rfl
  simp only [Program.Uniform]
  split
  · exact fail_uniform _
  · split
    · exact fail_uniform _
    · split
      · exact fail_uniform _
      · exact fail_uniform _
      · simp only [Program.Uniform]
        split
        · exact fail_uniform _
        · exact relay_uniform _

theorem tunnel_uniform (p : Proxy) (t : Target) : (p.tunnel t).Uniform := by
  refine Program.uniform_consult (fun x => ?_) fun _ _ _ => rfl
  simp only [Program.Uniform]
  split
  · exact fail_uniform _
  · split
    · exact fail_uniform _
    · exact fail_uniform _
    · simp only [Program.Uniform]
      split
      · exact relay_uniform _
      · split
        · exact relay_uniform _
        · exact fail_uniform _

theorem setHeaders_uniform {rest : Program} (h : rest.Uniform)
    (headers : List (HeaderName × HeaderValue)) : (setHeaders rest headers).Uniform := by
  induction headers with
  | nil => exact h
  | cons _ _ ih => exact ih

theorem introduce_uniform (p : Proxy) (t : Target) : (p.introduce t).Uniform := by
  refine Program.uniform_consult (fun x => ?_) fun _ _ _ => rfl
  refine setHeaders_uniform (Program.uniform_consult (fun y => ?_) fun _ _ _ => rfl) _
  split
  · exact p.tunnel_uniform t
  · exact p.forward_uniform t

theorem prepare_uniform (p : Proxy) (t : Target) : (p.prepare t).Uniform := by
  refine Program.uniform_consult (fun x => ?_) fun _ _ _ => rfl
  split
  · exact fail_uniform _
  · exact p.introduce_uniform t
  · exact p.introduce_uniform t

theorem uniform (p : Proxy) : p.program.Uniform := by
  refine Program.uniform_consult (fun x => ?_) fun _ _ _ => rfl
  simp only [Program.Uniform]
  split
  · exact fail_uniform _
  · exact p.prepare_uniform _

end Proxy

/-- An action that reads nothing but what handlers may know. -/
def Action.Uniform : Action → Prop
  | note _ read => ∀ x y, x.Alike y → read x = read y
  | _ => True

namespace Action

theorem releaseKept_uniform {rest : Program} (h : rest.Uniform) : (releaseKept rest).Uniform := by
  refine Program.uniform_consult (fun x => ?_) fun _ _ _ => rfl
  cases x.world.kept <;> exact h

theorem holdValues_uniform {rest : Program} (h : rest.Uniform) : (holdValues rest).Uniform :=
  ⟨fun _ => h, fun x y hxy => by simp only [hxy.handles_eq]⟩

theorem program_uniform {a : Action} (ha : a.Uniform) (handler : String) {rest : Program}
    (h : rest.Uniform) : (a.program handler rest).Uniform := by
  cases a with
  | note name read => exact ⟨fun _ => h, fun x y hxy => by simp only [ha x y hxy]⟩
  | hold => exact releaseKept_uniform (holdValues_uniform h)
  | release => exact releaseKept_uniform h
  | keep name value =>
    refine Program.uniform_consult (fun x => ?_) fun _ _ _ => rfl
    split <;> exact h
  | next => exact h
  | panic p => trivial
  | act op => exact h

end Action

theorem Script.uniform {actions : List Action} (h : ∀ a ∈ actions, a.Uniform) (name : String) :
    (program name actions).Uniform := by
  induction actions with
  | nil => trivial
  | cons a actions ih =>
    obtain ⟨ha, hrest⟩ := List.forall_mem_cons.mp h
    exact Action.program_uniform ha name (ih hrest)

end Gateway
