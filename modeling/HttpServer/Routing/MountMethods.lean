import HttpServer.Response.MediaType

/-!
# Methods of mounts

A mount serves a set of methods, each standing for an action on files. However the set was put
together, it is listed in one fixed order.
-/

namespace HttpServer

/-- A method that a mount can serve. -/
inductive MountMethod
  | get | put | post | delete | head | options
  deriving DecidableEq

namespace MountMethod

def name : MountMethod → String
  | .get => "GET"
  | .put => "PUT"
  | .post => "POST"
  | .delete => "DELETE"
  | .head => "HEAD"
  | .options => "OPTIONS"

/-- All methods, in the order in which sets of them are listed. -/
def all : List MountMethod := [.get, .put, .post, .delete, .head, .options]

def ofName? (name : String) : Option MountMethod := all.find? fun method => method.name == name

end MountMethod

/-- A set of methods. -/
structure MountMethods where
  contains : MountMethod → Bool

namespace MountMethods

def empty : MountMethods := ⟨fun _ => false⟩

def all : MountMethods := ⟨fun _ => true⟩

def insert (s : MountMethods) (method : MountMethod) : MountMethods :=
  ⟨fun other => other == method || s.contains other⟩

def erase (s : MountMethods) (method : MountMethod) : MountMethods :=
  ⟨fun other => other != method && s.contains other⟩

/-- The methods that look at files and leave them as they are. -/
def readOnly : MountMethods := ((empty.insert .get).insert .head).insert .options

/-- The methods of the set, in their fixed order. -/
def toList (s : MountMethods) : List MountMethod := MountMethod.all.filter s.contains

def isEmpty (s : MountMethods) : Bool := s.toList == []

/-- The value of the field that lists the methods. -/
def allowValue (s : MountMethods) : String := ", ".intercalate (s.toList.map MountMethod.name)

end MountMethods

/-- Some part of the text is the given one. -/
def containsText (part : List Char) : List Char → Bool
  | [] => part == []
  | c :: cs => part.isPrefixOf (c :: cs) || containsText part cs

/-- A path that could step out of the directory it is looked up in, seen with either separator. -/
def isTraversal (path : String) : Bool :=
  containsText ['.', '.', '/'] path.toList || containsText ['.', '.', '\\'] path.toList ||
    (splitAll (fun c => c == '/' || c == '\\') path.toList).any (· == ['.', '.'])

end HttpServer
