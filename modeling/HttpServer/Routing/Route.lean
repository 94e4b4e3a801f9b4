import HttpServer.Request.NameMap
import HttpServer.Text.Number
import HttpServer.Text.Split

/-!
# Routes

A route answers one method on the paths that its pattern covers. The pattern of a template has one
segment per part of the path: a literal matches itself, and a parameter `:name` matches any part
that is not empty and captures it. The pattern of a mount covers every path at or below its stem.
-/

namespace HttpServer

/-- Why a route could not be registered. -/
inductive RouteError
  /-- A parameter of the template has no name. -/
  | unnamedParameter (template : String)
  /-- A mount serves no method. -/
  | noMountMethods
  deriving DecidableEq

def RouteError.message : RouteError → String
  | .unnamedParameter template =>
    "parameters need a valid name, got a bare ':' in '" ++ template ++ "'"
  | .noMountMethods => "a mount needs at least one method"

/-- One part of a template. -/
inductive Segment
  | literal (text : List Char)
  | parameter (name : List Char)
  deriving DecidableEq

/-- The parts of a path; one slash in front does not count. -/
def pathParts (path : String) : List (List Char) :=
  splitAll (· == '/') (match path.toList with
    | '/' :: rest => rest
    | other => other)

namespace Segment

/-- Reads one part of a template; a parameter needs a name. -/
def read? : List Char → Option Segment
  | [':'] => none
  | ':' :: name => some (.parameter name)
  | text => some (.literal text)

/-- The segment matches a part of a path. -/
def accepts : Segment → List Char → Bool
  | .literal text, part => text == part
  | .parameter _, part => part != []

/-- The pair that a segment captures from a part of a path. -/
def capture? : Segment → List Char → Option (String × String)
  | .literal _, _ => none
  | .parameter name, part => some (String.ofList name, String.ofList part)

end Segment

/-- Which paths a route covers. -/
inductive Pattern
  /-- Paths with these segments. -/
  | template (segments : List Segment)
  /-- The path `stem` and all below it. -/
  | below (stem : String)
  deriving DecidableEq

namespace Pattern

/-- Reads the segments of a template. -/
def ofTemplate (template : String) : Except RouteError Pattern :=
  match (pathParts template).mapM Segment.read? with
  | some segments => .ok (.template segments)
  | none => .error (.unnamedParameter template)

/-- Segment by segment, a template matches the parts of a path, and neither is longer. -/
def acceptsParts : List Segment → List (List Char) → Bool
  | [], [] => true
  | segment :: segments, part :: parts => segment.accepts part && acceptsParts segments parts
  | _, _ => false

def accepts (p : Pattern) (path : String) : Bool :=
  match p with
  | .template segments => acceptsParts segments (pathParts path)
  | .below stem =>
    match stem.toList.isPrefixOf? path.toList with
    | some rest => rest == [] || rest.head? == some '/' || stem.toList.getLast? == some '/'
    | none => false

/-- The parameters that a pattern captures from a path. -/
def captures (p : Pattern) (path : String) : NameMap :=
  match p with
  | .template segments =>
    NameMap.ofList
      ((segments.zip (pathParts path)).filterMap fun (segment, part) => segment.capture? part)
  | .below _ => NameMap.empty

end Pattern

/-- A method on the paths of a pattern, with what answers it. -/
structure Route (η : Type u) where
  method : String
  /-- The template or the stem, as it was given. -/
  template : String
  pattern : Pattern
  priority : Int
  handler : η

/-- How far a request agrees with the routes. -/
inductive MatchLevel
  | none
  /-- The path is that of a route for another method. -/
  | path
  | full
  deriving DecidableEq

namespace Route

variable {η : Type u}

/-- The route maps a directory. -/
def isMount (r : Route η) : Bool :=
  match r.pattern with
  | .template _ => false
  | .below _ => true

/-- How far a method and a path agree with the route. -/
def level (r : Route η) (method path : String) : MatchLevel :=
  if !r.pattern.accepts path then .none
  else if r.method = method then .full
  else .path

end Route

end HttpServer
