import HttpServer.Routing.Router
import Mathlib.Data.List.Perm.Basic

/-!
# The order of routes

Routes are registered one by one or, for a mount, one per method, and some registrations fail. A
router keeps what was registered by falling priority and otherwise in the order in which it came
(`Router.Ordered`), so that the first route it finds is the one of the highest priority among all
that were registered and, within that priority, the earliest (`Router.find_registered`).
-/

universe u

namespace HttpServer

variable {η : Type u}

/-- The route is for this method and covers this path. -/
def Route.Answers (r : Route η) (method path : String) : Prop :=
  r.pattern.accepts path = true ∧ r.method = method

instance (r : Route η) (method path : String) : Decidable (r.Answers method path) := by
  unfold Route.Answers
  infer_instance

/-- A route matches in full exactly if it answers. -/
theorem Route.level_eq_full_iff (r : Route η) (method path : String) :
    r.level method path = .full ↔ r.Answers method path := by
  unfold Route.level Route.Answers
  cases r.pattern.accepts path with
  | false => simp
  | true => by_cases hmethod : r.method = method <;> simp [hmethod]

/-- A route matches the path alone exactly if it does so for another method. -/
theorem Route.level_eq_path_iff (r : Route η) (method path : String) :
    r.level method path = .path ↔ r.pattern.accepts path = true ∧ r.method ≠ method := by
  unfold Route.level
  cases r.pattern.accepts path with
  | false => simp
  | true => by_cases hmethod : r.method = method <;> simp [hmethod]

/-! ## Registrations -/

/-- What a router is asked to register: a route for a template, or a mount, as which directories are
mapped too. -/
inductive Registration (η : Type u)
  | route (method template : String) (handler : η) (priority : Int)
  | mount (stem : String) (methods : MountMethods) (handler : MountMethod → η) (priority : Int)

/-- The routes of a registration in their order, or why it fails. -/
def Registration.routes : Registration η → Except RouteError (List (Route η))
  | .route method template handler priority =>
    (Pattern.ofTemplate template).map fun pattern =>
      [{ method, template, pattern, priority, handler }]
  | .mount stem methods handler priority =>
    if methods.isEmpty then .error .noMountMethods
    else .ok (methods.toList.map fun method =>
      { method := method.name, template := stem, pattern := .below stem, priority,
        handler := handler method })

/-- All routes of those registrations that succeed, in the order of registration. -/
def Registration.registered (gs : List (Registration η)) : List (Route η) :=
  gs.flatMap fun g => g.routes.toOption.getD []

namespace Router

def register (r : Router η) : Registration η → Except RouteError (Router η)
  | .route method template handler priority => r.add method template handler priority
  | .mount stem methods handler priority => r.mount stem methods handler priority

/-- Registers what can be registered, one after another. -/
def registerAll (r : Router η) (gs : List (Registration η)) : Router η :=
  gs.foldl (fun router g => (router.register g).toOption.getD router) r

/-! ## Matching order -/

/-- Routes in matching order are those that were registered, by falling priority and otherwise in
the order of registration. -/
structure Ordered (routes all : List (Route η)) : Prop where
  perm : routes.Perm all
  falling : routes.Pairwise fun first later => later.priority ≤ first.priority
  stable : ∀ priority : Int,
    routes.filter (·.priority == priority) = all.filter (·.priority == priority)

/-- A route is put somewhere among the others. -/
theorem insertRoute_perm (route : Route η) (routes : List (Route η)) :
    (insertRoute route routes).Perm (route :: routes) := by
  induction routes with
  | nil => exact List.Perm.refl _
  | cons first rest ih =>
      unfold insertRoute
      split
      · exact (ih.cons first).trans (List.Perm.swap route first rest)
      · exact List.Perm.refl _

/-- A route is put where its priority belongs. -/
theorem insertRoute_falling {routes : List (Route η)} (route : Route η)
    (h : routes.Pairwise fun first later => later.priority ≤ first.priority) :
    (insertRoute route routes).Pairwise fun first later => later.priority ≤ first.priority := by
  induction routes with
  | nil => exact List.pairwise_singleton _ route
  | cons first rest ih =>
      obtain ⟨hfirst, hrest⟩ := List.pairwise_cons.1 h
      unfold insertRoute
      split
      · rename_i hle
        refine List.pairwise_cons.2 ⟨fun later hlater => ?_, ih hrest⟩
        rcases List.mem_cons.1 ((insertRoute_perm route rest).subset hlater) with rfl | hmem
        · exact hle
        · exact hfirst later hmem
      · rename_i hlt
        have hbelow : first.priority ≤ route.priority := Int.le_of_lt (Int.not_le.1 hlt)
        refine List.pairwise_cons.2 ⟨fun later hlater => ?_, h⟩
        rcases List.mem_cons.1 hlater with rfl | hmem
        · exact hbelow
        · exact Int.le_trans (hfirst later hmem) hbelow

/-- Within its own priority a route comes last. -/
theorem filter_insertRoute {routes : List (Route η)} (route : Route η)
    (h : routes.Pairwise fun first later => later.priority ≤ first.priority) (priority : Int) :
    (insertRoute route routes).filter (·.priority == priority) =
      (routes ++ [route]).filter (·.priority == priority) := by
  induction routes with
  | nil => rfl
  | cons first rest ih =>
      obtain ⟨hfirst, hrest⟩ := List.pairwise_cons.1 h
      unfold insertRoute
      split
      · rw [List.cons_append, List.filter_cons, List.filter_cons, ih hrest]
      · rename_i hlt
        -- Everything from here on has a lower priority, so it is not in the way of the route.
        rw [List.filter_append, List.filter_cons]
        split
        · rename_i heq
          have hnone : (first :: rest).filter (·.priority == priority) = [] := by
            rw [List.filter_eq_nil_iff]
            intro later hlater hsame
            have hle : later.priority ≤ first.priority := by
              rcases List.mem_cons.1 hlater with rfl | hmem
              · exact Int.le_refl _
              · exact hfirst later hmem
            rw [beq_iff_eq] at heq hsame
            omega
          rw [hnone, List.nil_append]
          simp only [List.filter_cons, heq, ↓reduceIte, List.filter_nil]
        · rename_i hne
          simp only [List.filter_cons, List.filter_nil, List.append_nil, if_neg hne]

/-- **A route that is registered goes behind those of its priority**, so the order stays. -/
theorem Ordered.insert {routes all : List (Route η)} (h : Ordered routes all) (route : Route η) :
    Ordered (insertRoute route routes) (all ++ [route]) where
  perm := by
    refine (insertRoute_perm route routes).trans ((h.perm.cons route).trans ?_)
    exact (List.perm_append_singleton route all).symm
  falling := insertRoute_falling route h.falling
  stable priority := by
    rw [filter_insertRoute route h.falling, List.filter_append, h.stable, ← List.filter_append]

/-- Routes that are inserted one after another stand behind all that were registered before. -/
theorem Ordered.insertAll {r : Router η} {all : List (Route η)} (h : Ordered r.routes all)
    (routes : List (Route η)) :
    Ordered (routes.foldl Router.insert r).routes (all ++ routes) := by
  induction routes generalizing r all with
  | nil =>
      rw [List.append_nil]
      exact h
  | cons route routes ih =>
      have hlater : Ordered (r.insert route).routes (all ++ [route]) := h.insert route
      have hdone := ih hlater
      rw [List.append_assoc, List.singleton_append] at hdone
      exact hdone

/-- A registration inserts its routes in their order or fails for their reason. -/
theorem register_eq (r : Router η) (g : Registration η) :
    r.register g = g.routes.map fun routes => routes.foldl Router.insert r := by
  cases g with
  | route method template handler priority =>
      simp only [register, add, Registration.routes]
      cases Pattern.ofTemplate template with
      | error e => rfl
      | ok pattern => rfl
  | mount stem methods handler priority =>
      simp only [register, mount, Registration.routes]
      split
      · rfl
      · exact congrArg Except.ok (List.foldl_map ..).symm

/-- A registration fails for the fault of its own routes alone. -/
theorem register_eq_error_iff (r : Router η) (g : Registration η) (e : RouteError) :
    r.register g = .error e ↔ g.routes = .error e := by
  rw [register_eq]
  cases g.routes with
  | error cause =>
      exact ⟨fun h => congrArg Except.error (Except.error.inj h),
        fun h => congrArg Except.error (Except.error.inj h)⟩
  | ok routes =>
      refine ⟨fun h => ?_, fun h => ?_⟩
      · cases h
      · cases h

/-- The order stays through any number of registrations, by induction on them. -/
theorem Ordered.registerAll {r : Router η} {all : List (Route η)} (h : Ordered r.routes all)
    (gs : List (Registration η)) :
    Ordered (r.registerAll gs).routes (all ++ Registration.registered gs) := by
  induction gs generalizing r all with
  | nil =>
      rw [Registration.registered, List.flatMap_nil, List.append_nil]
      exact h
  | cons g gs ih =>
      rw [Registration.registered, List.flatMap_cons, ← List.append_assoc]
      refine ih ?_
      dsimp only
      rw [register_eq]
      cases g.routes with
      | error e => exact (List.append_nil all).symm ▸ h
      | ok routes => exact h.insertAll routes

/-- A router is ordered however it came about. -/
theorem ordered_registered (gs : List (Registration η)) :
    Ordered (({} : Router η).registerAll gs).routes (Registration.registered gs) := by
  have hnone : Ordered ({} : Router η).routes [] :=
    ⟨List.Perm.refl _, List.Pairwise.nil, fun _ => rfl⟩
  exact hnone.registerAll gs

/-! ## The route that is found -/

/-- The route at a place among all that were registered goes first: of those that answer, none has a
higher priority, and none of the same priority was registered earlier. -/
structure GoesFirst (all : List (Route η)) (method path : String) (place : Nat) (route : Route η) :
    Prop where
  atPlace : all[place]? = some route
  answers : route.Answers method path
  before : ∀ (other : Nat) (rival : Route η), all[other]? = some rival →
    rival.Answers method path →
      rival.priority < route.priority ∨ rival.priority = route.priority ∧ place ≤ other

/-- No two routes go first. -/
theorem GoesFirst.unique {all : List (Route η)} {method path : String} {place other : Nat}
    {route rival : Route η} (h : GoesFirst all method path place route)
    (hrival : GoesFirst all method path other rival) : route = rival := by
  have hplace : place = other := by
    have hthere := h.before other rival hrival.atPlace hrival.answers
    have hback := hrival.before place route h.atPlace h.answers
    omega
  exact Option.some.inj (h.atPlace.symm.trans (hplace ▸ hrival.atPlace))

/-- The route that is found is the first that answers. -/
theorem find?_eq (r : Router η) (method path : String) :
    r.find? method path = r.routes.find? fun route => decide (route.Answers method path) := by
  unfold find?
  congr 1
  funext route
  rw [Bool.eq_iff_iff, beq_iff_eq, route.level_eq_full_iff, decide_eq_true_iff]

/-- The first route that answers in an ordered list has the highest priority, and came first among
those that have it. -/
theorem Ordered.goesFirst {r : Router η} {all : List (Route η)} (h : Ordered r.routes all)
    {method path : String} {route : Route η} (hfound : r.find? method path = some route) :
    ∃ place, GoesFirst all method path place route := by
  rw [find?_eq] at hfound
  obtain ⟨hanswers, earlier, later, hroutes, hearlier⟩ :=
    List.find?_eq_some_iff_append.1 hfound
  rw [decide_eq_true_iff] at hanswers
  -- Among the routes of its priority, which stand as they were registered, it is the first.
  have hamong : (all.filter (·.priority == route.priority)).find?
      (fun rival => decide (rival.Answers method path)) = some route := by
    rw [← h.stable, List.find?_filter, List.find?_eq_some_iff_append]
    refine ⟨by simp [hanswers], earlier, later, hroutes, fun rival hrival => ?_⟩
    have hnot := hearlier rival hrival
    simp only [Bool.not_eq_true', decide_eq_false_iff_not] at hnot
    simp [hnot]
  rw [List.find?_filter] at hamong
  obtain ⟨_, place, hplace, hat, hprior⟩ := List.find?_eq_some_iff_getElem.1 hamong
  refine ⟨place, List.getElem?_eq_some_iff.2 ⟨hplace, hat⟩, hanswers, ?_⟩
  intro other rival hother hrival
  have hmem : rival ∈ earlier ++ route :: later :=
    hroutes ▸ h.perm.symm.subset (List.mem_of_getElem? hother)
  have hfalling := h.falling
  rw [hroutes, List.pairwise_append, List.pairwise_cons] at hfalling
  have hle : rival.priority ≤ route.priority := by
    rcases List.mem_append.1 hmem with hin | hin
    · have hnot := hearlier rival hin
      simp [hrival] at hnot
    · rcases List.mem_cons.1 hin with rfl | hbehind
      · exact Int.le_refl _
      · exact hfalling.2.1.1 rival hbehind
  rcases Int.lt_or_eq_of_le hle with hlt | heq
  · exact .inl hlt
  · refine .inr ⟨heq, Nat.le_of_not_lt fun hlt => ?_⟩
    obtain ⟨hbound, hget⟩ := List.getElem?_eq_some_iff.1 hother
    have hnot := hprior other hlt
    rw [hget] at hnot
    simp [heq, hrival] at hnot

/-- **The route that is found** is the one that goes first, for there is only one such. -/
theorem Ordered.find?_eq_some_iff {r : Router η} {all : List (Route η)} (h : Ordered r.routes all)
    (method path : String) (route : Route η) :
    r.find? method path = some route ↔ ∃ place, GoesFirst all method path place route := by
  refine ⟨h.goesFirst, fun ⟨place, hfirst⟩ => ?_⟩
  have hmem : route ∈ r.routes := h.perm.symm.subset (List.mem_of_getElem? hfirst.atPlace)
  have hsome : (r.find? method path).isSome = true := by
    rw [find?_eq, List.find?_isSome]
    exact ⟨route, hmem, decide_eq_true hfirst.answers⟩
  obtain ⟨found, hfound⟩ := Option.isSome_iff_exists.1 hsome
  obtain ⟨other, hother⟩ := h.goesFirst hfound
  rw [hfound, hother.unique hfirst]

/-- A route is found exactly if any answers. -/
theorem Ordered.find?_isSome_iff {r : Router η} {all : List (Route η)} (h : Ordered r.routes all)
    (method path : String) :
    (r.find? method path).isSome = true ↔ ∃ route ∈ all, route.Answers method path := by
  rw [find?_eq, List.find?_isSome]
  refine exists_congr fun route => and_congr h.perm.mem_iff ?_
  exact decide_eq_true_iff

/-- The level without a full match: whether the path is that of any route. -/
theorem Ordered.level_eq {r : Router η} {all : List (Route η)} (h : Ordered r.routes all)
    {method path : String} (hnone : ¬ ∃ route ∈ all, route.Answers method path) :
    r.level method path =
      if ∃ route ∈ all, route.pattern.accepts path = true then .path else .none := by
  have hfind : (r.find? method path).isSome = false := by
    rw [← Bool.not_eq_true, h.find?_isSome_iff]
    exact hnone
  have hany : (r.routes.any fun route => route.level method path == .path) = true ↔
      ∃ route ∈ all, route.pattern.accepts path = true := by
    rw [List.any_eq_true]
    refine exists_congr fun route => ?_
    rw [h.perm.mem_iff, beq_iff_eq, route.level_eq_path_iff]
    refine and_congr_right fun hmem => and_iff_left_of_imp fun hcovers hmethod => ?_
    exact hnone ⟨route, hmem, hcovers, hmethod⟩
  rw [level, hfind]
  simp only [Bool.false_eq_true, ↓reduceIte, hany]

/-- **The highest priority goes first, then the earliest registration.** Whatever was registered, a
route is found exactly if it goes first among all registered routes that answer, and one is found
exactly if there are any; otherwise the level tells whether some registered route covers the path. A
registration that fails leaves the router as it was, and the router has as many routes as were
registered. -/
theorem find_registered (gs : List (Registration η)) (method path : String) :
    let r := ({} : Router η).registerAll gs
    let all := Registration.registered gs
    (∀ route, r.find? method path = some route ↔ ∃ place, GoesFirst all method path place route) ∧
      ((∃ route ∈ all, route.Answers method path) →
        (r.find? method path).isSome = true ∧ r.level method path = .full) ∧
      ((¬ ∃ route ∈ all, route.Answers method path) →
        r.find? method path = none ∧
          r.level method path =
            if ∃ route ∈ all, route.pattern.accepts path = true then .path else .none) ∧
      (∀ (g : Registration η) (e : RouteError),
        (r.register g = .error e ↔ g.routes = .error e) ∧
          (r.register g = .error e → ({} : Router η).registerAll (gs ++ [g]) = r)) ∧
      r.size = all.length := by
  intro r all
  have hordered : Ordered r.routes all := ordered_registered gs
  refine ⟨hordered.find?_eq_some_iff method path, fun hsome => ?_, fun hnone => ⟨?_, ?_⟩,
    fun g e => ⟨r.register_eq_error_iff g e, fun hfailed => ?_⟩, hordered.perm.length_eq⟩
  · have hfound := (hordered.find?_isSome_iff method path).2 hsome
    exact ⟨hfound, if_pos hfound⟩
  · rw [← Option.not_isSome_iff_eq_none, hordered.find?_isSome_iff]
    exact hnone
  · exact hordered.level_eq hnone
  · rw [registerAll, List.foldl_append]
    exact congrArg (fun result => result.toOption.getD r) hfailed

/-- A mount in between, a failure and a route for another method do not keep the lower of two equal
priorities from being found. -/
example :
    ((({} : Router Nat).registerAll [.mount "/a" .all (fun _ => 0) (-100),
      .route "GET" "/a" 1 (-7), .route "GET" "/:" 2 9, .route "POST" "/a" 3 9,
      .route "GET" "/:name" 4 (-7)]).find? "GET" "/a").map Route.handler = some 1 := by
  decide +kernel

end Router

end HttpServer
