import Gateway.Router.Basic
import Mathlib.Data.List.Basic

/-! Registrations one after the other, through the handles of a router, and what they make of the
handles: each of them only changes by the middleware that is added through it. -/

namespace Gateway

/-- A route as it was registered, with the whole chain that serves it. -/
structure Route where
  method : Method
  pattern : String
  chain : Chain

def Route.info (r : Route) : RouteInfo := ⟨r.method, r.pattern, r.chain.name⟩

def Group.route (g : Group) (pattern : String) (handlers : List Handler) (m : Method) : Route :=
  ⟨m, Path.join g.base pattern, g.middleware ++ handlers⟩

namespace Site.Registration

/-- The routes that a registration through a group adds. -/
def routes (g : Group) : Registration → List Route
  | handle m pattern handlers => [g.route pattern handlers m]
  | any pattern handlers => Router.anyMethods.map (g.route pattern handlers)
  | serveFiles mount files =>
    if Config.hasParameter mount then []
    else ["GET", "HEAD"].map (g.route (Router.filesPattern mount) [files])
  | use _ | group .. | clone | notFound _ | noMethod _ => []

def groups (i : Nat) (g : Group) (gs : List Group) : Registration → List Group
  | use handlers => gs.set i { g with middleware := g.middleware ++ handlers }
  | group base handlers => gs ++ [g.sub base handlers]
  | clone => gs ++ [g]
  | handle .. | any .. | notFound _ | noMethod _ | serveFiles .. => gs

def router (g : Group) (r : Router) : Registration → Router
  | use handlers => (r.useMiddleware g handlers).1
  | group .. | clone => r
  | handle m pattern handlers => r.handle g m pattern handlers
  | any pattern handlers => r.any g pattern handlers
  | notFound handlers => r.notFound handlers
  | noMethod handlers => r.noMethod handlers
  | serveFiles mount files =>
    if Config.hasParameter mount then r
    else r.handleAll g ["GET", "HEAD"] (Router.filesPattern mount) [files]

def middleware : Registration → List Handler
  | use handlers => handlers
  | _ => []

def notFound? : Registration → Option (List Handler)
  | notFound handlers => some handlers
  | _ => none

def noMethod? : Registration → Option (List Handler)
  | noMethod handlers => some handlers
  | _ => none

end Site.Registration

namespace Site

open Registration

/-- The site after a registration through the handle of a number; one that is refused changes
nothing. -/
def after (s : Site) (op : Nat × Registration) : Site :=
  if h : op.1 < s.groups.length then
    match s.register ⟨op.1, h⟩ op.2 with
    | .ok s' => s'
    | .error _ => s
  else s

def run (s : Site) (ops : List (Nat × Registration)) : Site := ops.foldl after s

def routesOf (s : Site) (op : Nat × Registration) : List Route :=
  (s.groups[op.1]?.map fun g => op.2.routes g).getD []

/-- The routes that a run registers, each with the middleware that its handle has at that moment. -/
def journal (s : Site) : List (Nat × Registration) → List Route
  | [] => []
  | op :: ops => s.routesOf op ++ (s.after op).journal ops

/-- Every registration goes through a handle that is there by then. -/
def Named (s : Site) : List (Nat × Registration) → Prop
  | [] => True
  | op :: ops => op.1 < s.groups.length ∧ (s.after op).Named ops

def used (i : Nat) (ops : List (Nat × Registration)) : List Handler :=
  ops.flatMap fun op => if op.1 = i then op.2.middleware else []

def last (given? : Registration → Option (List Handler)) (ops : List (Nat × Registration)) :
    List Handler :=
  (ops.filterMap fun op => given? op.2).getLast?.getD []

theorem run_append (s : Site) (before later : List (Nat × Registration)) :
    s.run (before ++ later) = (s.run before).run later := List.foldl_append

theorem journal_append (s : Site) (before later : List (Nat × Registration)) :
    s.journal (before ++ later) = s.journal before ++ (s.run before).journal later := by
  induction before generalizing s with
  | nil => rfl
  | cons op before ih =>
    simp only [List.cons_append, journal, ih, List.append_assoc]
    rfl

theorem used_append (i : Nat) (before later : List (Nat × Registration)) :
    used i (before ++ later) = used i before ++ used i later := List.flatMap_append

theorem named_append (s : Site) (before later : List (Nat × Registration)) :
    s.Named (before ++ later) ↔ s.Named before ∧ (s.run before).Named later := by
  induction before generalizing s with
  | nil => simp [Named, run]
  | cons op before ih =>
    rw [List.cons_append, Named, Named, ih, and_assoc]
    rfl

/-! ### Handles -/

theorem after_of_group {s : Site} {i : Nat} {g : Group} (hg : s.groups[i]? = some g)
    (what : Registration) :
    s.after (i, what) = ⟨what.router g s.router, what.groups i g s.groups⟩ := by
  obtain ⟨hi, rfl⟩ := List.getElem?_eq_some_iff.mp hg
  rw [after, dif_pos hi]
  cases what with
  | use handlers =>
    by_cases hroot : (s.groups[i]).isRoot <;>
      simp [register, Router.useMiddleware, Registration.router, Registration.groups, hroot]
  | serveFiles mount files =>
    by_cases hp : Config.hasParameter mount
    · simp [register, Router.serveFiles, Registration.router, Registration.groups, hp, bind,
        Except.bind]
    · simp [register, Router.serveFiles, Registration.router, Registration.groups, hp, bind,
        Except.bind, pure, Except.pure]
  | group | clone | handle | any | notFound | noMethod => rfl

theorem after_of_no_group {s : Site} {i : Nat} (hg : s.groups[i]? = none) (what : Registration) :
    s.after (i, what) = s := by
  have hi : ¬ i < s.groups.length := by simpa using hg
  rw [after, dif_neg hi]

theorem groups_after {s : Site} {j : Nat} {g : Group} (hg : s.groups[j]? = some g)
    (op : Nat × Registration) :
    (s.after op).groups[j]? = some { g with middleware := g.middleware ++ used j [op] } := by
  obtain ⟨i, what⟩ := op
  obtain ⟨hj, rfl⟩ := List.getElem?_eq_some_iff.mp hg
  have hused : used j [(i, what)] = if i = j then what.middleware else [] := by simp [used]
  cases hi : s.groups[i]? with
  | none =>
    have hij : i ≠ j := by
      rintro rfl
      rw [hg] at hi
      cases hi
    rw [after_of_no_group hi, hused, if_neg hij, List.append_nil]
    exact hg
  | some g =>
    rw [after_of_group hi, hused]
    by_cases hij : i = j
    · subst i
      obtain rfl : s.groups[j] = g := Option.some.inj (hg.symm.trans hi)
      rw [if_pos rfl]
      cases what <;>
        simp [Registration.groups, Registration.middleware, List.getElem?_append_left, hj]
    · rw [if_neg hij, List.append_nil]
      cases what <;> simp [Registration.groups, List.getElem?_append_left, hj, hij]

theorem groups_run {s : Site} {j : Nat} {g : Group} (hg : s.groups[j]? = some g)
    (ops : List (Nat × Registration)) :
    (s.run ops).groups[j]? = some { g with middleware := g.middleware ++ used j ops } := by
  induction ops generalizing s g with
  | nil => simpa [run, used] using hg
  | cons op ops ih =>
    have hstep := ih (groups_after hg op)
    rw [List.append_assoc, ← used_append] at hstep
    exact hstep

theorem groups_after_group {s : Site} {i : Nat} {g : Group} (hg : s.groups[i]? = some g)
    (base : String) (handlers : List Handler) :
    (s.after (i, .group base handlers)).groups[s.groups.length]? = some (g.sub base handlers) := by
  simp [after_of_group hg, Registration.groups]

end Site

end Gateway
