import HttpServer.Routing.MountMethods
import HttpServer.Routing.Route

/-!
# Routers

A router holds its routes in matching order: by falling priority and, within one priority, in order
of registration (`Router.insert`). The first route that agrees with method and path answers. If none
does, it matters whether some route covers the path at least.
-/

namespace HttpServer

/-- Routes in matching order. -/
structure Router (η : Type u) where
  routes : List (Route η) := []

namespace Router

variable {η : Type u}

/-- Puts a route behind all routes of its own or a higher priority. -/
def insertRoute (route : Route η) : List (Route η) → List (Route η)
  | [] => [route]
  | first :: rest =>
    if route.priority ≤ first.priority then first :: insertRoute route rest
    else route :: first :: rest

def insert (r : Router η) (route : Route η) : Router η := ⟨insertRoute route r.routes⟩

/-- Registers a route for a template. -/
def add (r : Router η) (method template : String) (handler : η) (priority : Int := 0) :
    Except RouteError (Router η) :=
  (Pattern.ofTemplate template).map fun pattern =>
    r.insert { method, template, pattern, priority, handler }

/-- The priority of mounts unless given otherwise, below that of other routes. -/
def mountPriority : Int := -100

/-- Registers one route per method on everything below a stem. -/
def mount (r : Router η) (stem : String) (methods : MountMethods) (handler : MountMethod → η)
    (priority : Int := mountPriority) : Except RouteError (Router η) :=
  if methods.isEmpty then .error .noMountMethods
  else .ok (methods.toList.foldl
    (fun router method => router.insert
      { method := method.name, template := stem, pattern := .below stem, priority,
        handler := handler method })
    r)

def size (r : Router η) : Nat := r.routes.length

/-- The first route that agrees with method and path. -/
def find? (r : Router η) (method path : String) : Option (Route η) :=
  r.routes.find? fun route => route.level method path == .full

/-- How far a method and a path agree with the routes. -/
def level (r : Router η) (method path : String) : MatchLevel :=
  if (r.find? method path).isSome then .full
  else if r.routes.any fun route => route.level method path == .path then .path
  else .none

end Router

end HttpServer
