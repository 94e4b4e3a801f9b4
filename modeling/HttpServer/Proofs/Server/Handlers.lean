import HttpServer.Proofs.Session.Admission

/-!
# Which handler a connection runs

Once the header of a request was read, or could not be read, one program deals with the connection,
and then the connection is taken out of the registry (`Server.exec_serve`). Whether this program
runs a handler shows when all handlers are replaced by others: either nothing changes, or the whole
run depends on a single one of them, which is run once (`Server.Calls`). That one is the handler of
a route that agrees with the request, or the one for requests whose path no route covers
(`Server.calls_serve`).
-/

namespace HttpServer

open Serving Exchange

namespace Router

variable {η : Type u} (r : Router η) (f : Route η → η)

/-- Every route answers with another handler. -/
def mapHandlers : Router η :=
  ⟨r.routes.map fun route => { route with handler := f route }⟩

/-- Which route is found does not depend on the handlers. -/
theorem find?_mapHandlers (method path : String) :
    (r.mapHandlers f).find? method path =
      (r.find? method path).map fun route => { route with handler := f route } := by
  rw [find?, mapHandlers, List.find?_map]
  rfl

/-- Other handlers match the same requests. -/
theorem level_mapHandlers (method path : String) :
    (r.mapHandlers f).level method path = r.level method path := by
  rw [level, level, find?_mapHandlers, Option.isSome_map, mapHandlers, List.any_map]
  rfl

/-- Where no route agrees with method and path, nor with the path alone, none covers the path. -/
theorem level_eq_none_of_find? {r : Router η} {method path : String}
    (hfind : r.find? method path = none) (hlevel : r.level method path ≠ .path) :
    ∀ route ∈ r.routes, route.level method path = .none := by
  intro route hroute
  rw [level, hfind, Option.isSome_none, if_neg nofun] at hlevel
  have hfull : route.level method path ≠ .full := by
    simpa using List.find?_eq_none.1 hfind route hroute
  have hpath : route.level method path ≠ .path := by
    intro hpath
    rw [if_pos (List.any_eq_true.2 ⟨route, hroute, by simpa using hpath⟩)] at hlevel
    exact hlevel rfl
  cases h : route.level method path with
  | none => rfl
  | path => exact absurd h hpath
  | full => exact absurd h hfull

end Router

namespace Action

variable {ν α : Type}

/-- A program that can panic is run up to there. -/
theorem exec_run_recover (p : Action ν α) (e : Exchange ν) :
    exec p.recover.run e = ((exec p.run e).1.map some, (exec p.run e).2) := by
  induction p generalizing e with
  | done result => rfl
  | panic => rfl
  | perform op next ih =>
      rw [recover, exec_run_perform, exec_run_perform]
      rcases exec (Serving.perform op) e with ⟨_ | reply, later⟩
      · rfl
      · exact ih reply later

/-- A program that starts by looking goes on with what it sees. -/
theorem exec_run_look_bind (f : View → Action ν α) (e : Exchange ν) :
    exec ((look : Action ν View) >>= f).run e = exec (f e.view).run e := by
  have hlook : exec (look : Action ν View).run e = (some (some e.view), e) :=
    exec_run_ofOperation .look e
  change exec (Action.bind (look : Action ν View) f).run e = _
  rw [exec_run_bind, hlook]

end Action

namespace Server

variable {ν : Type}

/-- Runs a program and takes the connection out of the registry, unless the program panicked. -/
def release (p : Action ν Unit) : Serving ν (Option Unit) := do
  match ← p.run with
  | none => return none
  | some () =>
    modify Exchange.unregister
    return some ()

/-- The connection is taken out of the registry unless the program has panicked. -/
theorem exec_release (p : Action ν Unit) (e : Exchange ν) :
    exec (release p) e = match exec p.run e with
      | (some (some ()), later) => (some (some ()), later.unregister)
      | (some none, later) => (some none, later)
      | (none, later) => (none, later) := by
  rw [release, exec_bind]
  rcases exec p.run e with ⟨_ | _ | _, later⟩ <;> rfl

/-- **What serving a connection is** once its header was read, or could not be read. -/
theorem exec_serve (s : Server ν) (e : Exchange ν) :
    exec s.serve e = match exec readHeader.run e with
      | (some (.ok reader), found) => exec (release s.answer) (found.bind reader)
      | (some (.error failure), found) => exec (release (s.headerFailed failure)) found
      | (none, found) => (none, found) := by
  rw [serve, exec_bind]
  rcases exec readHeader.run e with ⟨_ | _ | reader, found⟩
  · rfl
  · rfl
  · rfl

/-- Lets the timeout hook answer, or finishes what was left unfinished. -/
def wrapUp (s : Server ν) : Action ν Unit := do
  if (← Action.look).handle.timedOut then s.onTimeout else s.sendUnlessConcluded .finish

theorem answer_eq (s : Server ν) : s.answer = s.dispatch.bind fun _ => s.wrapUp := rfl

/-- Deals with what came of a handler. -/
def settle (s : Server ν) : Option (Except HandlerError Unit) → Action ν Unit
  | some (.ok ()) => pure ()
  | some (.error e) => s.handlerFailed e
  | none => s.sendInternalError .finish

/-- Runs a handler once and deals with what came of it. -/
def servedBy (s : Server ν) (handler : Handler ν) : Serving ν (Option Unit) := do
  let outcome ← handler.run.run
  release ((s.settle outcome).bind fun _ => s.wrapUp)

/-- A handler is run, and its outcome is settled. -/
theorem exec_invoke (s : Server ν) (handler : Handler ν) (e : Exchange ν) :
    exec (s.invoke handler).run e = match exec handler.run.run e with
      | (some outcome, later) => exec (s.settle outcome).run later
      | (none, later) => (none, later) := by
  change exec (Action.bind handler.run.recover _).run e = _
  rw [Action.exec_run_bind, Action.exec_run_recover]
  rcases exec handler.run.run e with ⟨_ | _ | _ | _, later⟩ <;> rfl

/-- Serving a request by a handler is invoking it and wrapping up. -/
theorem exec_servedBy (s : Server ν) (handler : Handler ν) (e : Exchange ν) :
    exec (release ((s.invoke handler).bind fun _ => s.wrapUp)) e = exec (s.servedBy handler) e := by
  rw [exec_release, Action.exec_run_bind, exec_invoke, servedBy, exec_bind]
  rcases exec handler.run.run e with ⟨_ | outcome, later⟩
  · rfl
  · dsimp only
    rw [exec_release, Action.exec_run_bind]

/-- Programs that do the same at first and go on in the same way do the same. -/
theorem exec_release_bind_congr {p q : Action ν Unit} {next : Unit → Action ν Unit}
    {e other : Exchange ν} (h : exec p.run e = exec q.run other) :
    exec (release (p.bind next)) e = exec (release (q.bind next)) other := by
  rw [exec_release, exec_release, Action.exec_run_bind, Action.exec_run_bind, h]

/-- Where no route is found, the path decides between two answers. -/
theorem exec_dispatch_of_find?_eq_none {s : Server ν} {e : Exchange ν}
    (hroute : s.router.find? e.view.method e.view.path = none) :
    exec s.dispatch.run e =
      exec (match s.router.level e.view.method e.view.path, s.onMissing with
        | .path, _ => s.sendUnlessConcluded (.status 405)
        | _, some handler => s.invoke handler
        | _, none => s.sendUnlessConcluded (.status 404)).run e := by
  rw [dispatch, Action.exec_run_look_bind]
  rewrite [hroute]
  rfl

/-- The server with other handlers on its routes and for requests that no route covers. -/
def withHandlers (s : Server ν) (f : Route (Handler ν) → Handler ν) (g : Handler ν → Handler ν) :
    Server ν :=
  { s with router := s.router.mapHandlers f, onMissing := s.onMissing.map g }

/-- A server with its own handlers is the server itself. -/
theorem withHandlers_self (s : Server ν) : s.withHandlers Route.handler id = s := by
  have hroutes : s.router.mapHandlers Route.handler = s.router :=
    congrArg Router.mk (List.map_id s.router.routes)
  rw [withHandlers, hroutes, Option.map_id_fun, id]

/-- **Which handler a connection runs**: none, so that it makes no difference if all are replaced,
or one, and that once. This is the handler of a route that agrees with the request, after the
session middleware has let the request pass, or the one for requests whose path no route covers. -/
inductive Calls (s : Server ν) (e : Exchange ν) : Prop
  | none (hnone : ∀ f g, exec (s.withHandlers f g).serve e = exec s.serve e)
  | route (reader : HeaderReader) (found : Exchange ν) (route : Route (Handler ν))
      (admitted : Exchange ν) (hread : exec readHeader.run e = (some (.ok reader), found))
      (hfind : s.router.find? (found.bind reader).view.method (found.bind reader).view.path =
        some route)
      (hfull : route.level (found.bind reader).view.method (found.bind reader).view.path = .full)
      (hguard : exec s.guard.run.run (routed (found.bind reader) route) =
        (some (some (.ok true)), admitted))
      (honce : ∀ f g, exec (s.withHandlers f g).serve e = exec (s.servedBy (f route)) admitted)
  | missing (reader : HeaderReader) (found : Exchange ν) (handler : Handler ν)
      (hread : exec readHeader.run e = (some (.ok reader), found))
      (hhandler : s.onMissing = some handler)
      (huncovered : ∀ route ∈ s.router.routes,
        route.level (found.bind reader).view.method (found.bind reader).view.path = .none)
      (honce : ∀ f g,
        exec (s.withHandlers f g).serve e = exec (s.servedBy (g handler)) (found.bind reader))

/-- A request that was read is dispatched and wrapped up. -/
theorem exec_serve_of_readHeader {s : Server ν} {e found : Exchange ν} {reader : HeaderReader}
    (hread : exec readHeader.run e = (some (.ok reader), found)) :
    exec s.serve e = exec (release (s.dispatch.bind fun _ => s.wrapUp)) (found.bind reader) := by
  rw [exec_serve, hread, ← answer_eq]

/-- Other handlers are found and admitted like those that they replace. -/
theorem exec_dispatch_withHandlers {s : Server ν} {e : Exchange ν} {route : Route (Handler ν)}
    (hfind : s.router.find? e.view.method e.view.path = some route)
    (f : Route (Handler ν) → Handler ν) (g : Handler ν → Handler ν) :
    exec (s.withHandlers f g).dispatch.run e = match exec s.guard.run.run (routed e route) with
      | (some (some (.ok true)), admitted) => exec (s.invoke (f route)).run admitted
      | (some (some (.ok false)), later) => (some (some ()), later)
      | (some (some (.error failure)), later) => exec (s.reportSend failure).run later
      | (some none, later) => (some none, later)
      | (none, later) => (none, later) := by
  have hreplaced : (s.withHandlers f g).router.find? e.view.method e.view.path =
      some { route with handler := f route } := by
    rw [withHandlers, Router.find?_mapHandlers, hfind]
    rfl
  exact exec_dispatch hreplaced

/-- With a route for it, a request is answered by the handler of this route or by none. -/
theorem calls_of_find?_eq_some {s : Server ν} {e found : Exchange ν} {reader : HeaderReader}
    (hread : exec readHeader.run e = (some (.ok reader), found)) {route : Route (Handler ν)}
    (hfind : s.router.find? (found.bind reader).view.method (found.bind reader).view.path =
      some route) : s.Calls e := by
  by_cases hguard : ∃ admitted, exec s.guard.run.run (routed (found.bind reader) route) =
      (some (some (.ok true)), admitted)
  · obtain ⟨admitted, hguard⟩ := hguard
    have hfull : route.level (found.bind reader).view.method (found.bind reader).view.path =
        .full := by
      simpa using List.find?_some hfind
    refine .route reader found route admitted hread hfind hfull hguard fun f g => ?_
    have hdispatch := exec_dispatch_withHandlers hfind f g
    rw [hguard] at hdispatch
    rw [exec_serve_of_readHeader hread, ← exec_servedBy]
    exact exec_release_bind_congr hdispatch
  · refine .none fun f g => ?_
    rw [exec_serve_of_readHeader hread, exec_serve_of_readHeader hread]
    refine exec_release_bind_congr ?_
    rw [exec_dispatch_withHandlers hfind, exec_dispatch hfind]
    generalize exec s.guard.run.run (routed (found.bind reader) route) = outcome at hguard
    rcases outcome with ⟨_ | _ | _ | _ | _, later⟩
    · rfl
    · rfl
    · rfl
    · rfl
    · exact absurd ⟨later, rfl⟩ hguard

/-- Without a route for it, a request is answered by the handler for such requests or by none. -/
theorem calls_of_find?_eq_none {s : Server ν} {e found : Exchange ν} {reader : HeaderReader}
    (hread : exec readHeader.run e = (some (.ok reader), found))
    (hfind : s.router.find? (found.bind reader).view.method (found.bind reader).view.path = none) :
    s.Calls e := by
  have hdispatch := exec_dispatch_of_find?_eq_none hfind
  have hreplaced (f : Route (Handler ν) → Handler ν) (g : Handler ν → Handler ν) :
      exec (s.withHandlers f g).dispatch.run (found.bind reader) =
        exec (match s.router.level (found.bind reader).view.method (found.bind reader).view.path,
            s.onMissing.map g with
          | .path, _ => s.sendUnlessConcluded (.status 405)
          | _, some handler => s.invoke handler
          | _, none => s.sendUnlessConcluded (.status 404)).run (found.bind reader) := by
    rw [exec_dispatch_of_find?_eq_none (by rw [withHandlers, Router.find?_mapHandlers, hfind]; rfl),
      withHandlers, Router.level_mapHandlers]
    rfl
  by_cases hlevel : s.router.level (found.bind reader).view.method (found.bind reader).view.path =
      .path
  · refine .none fun f g => ?_
    rw [exec_serve_of_readHeader hread, exec_serve_of_readHeader hread]
    refine exec_release_bind_congr ?_
    rw [hdispatch, hreplaced, hlevel]
  · cases hmissing : s.onMissing with
    | none =>
        refine .none fun f g => ?_
        rw [exec_serve_of_readHeader hread, exec_serve_of_readHeader hread]
        refine exec_release_bind_congr ?_
        rw [hdispatch, hreplaced, hmissing]
        rfl
    | some handler =>
        refine .missing reader found handler hread hmissing
          (Router.level_eq_none_of_find? hfind hlevel) fun f g => ?_
        rw [exec_serve_of_readHeader hread, ← exec_servedBy]
        refine exec_release_bind_congr ?_
        rw [hreplaced, hmissing]
        generalize s.router.level (found.bind reader).view.method (found.bind reader).view.path =
          level at hlevel
        cases level with
        | path => exact absurd rfl hlevel
        | none => rfl
        | full => rfl

/-- **At most one handler runs**, and at most once. -/
theorem calls_serve (s : Server ν) (e : Exchange ν) : s.Calls e := by
  rcases hread : exec readHeader.run e with ⟨_ | failure | reader, found⟩
  · refine .none fun f g => ?_
    rw [exec_serve, exec_serve, hread]
  · refine .none fun f g => ?_
    rw [exec_serve, exec_serve, hread]
    rfl
  · cases hfind : s.router.find? (found.bind reader).view.method (found.bind reader).view.path with
    | none => exact calls_of_find?_eq_none hread hfind
    | some route => exact calls_of_find?_eq_some hread hfind

end Server

end HttpServer
