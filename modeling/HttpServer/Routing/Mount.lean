import HttpServer.Exchange.Action
import HttpServer.Routing.Router

/-!
# Mounts

A mount maps the paths below its stem onto a directory. Each of its methods is an action on the file
that a path leads to: sending it, describing it, writing it from the request body, removing it, or
listing the methods. Before any of them the veto of the mount is asked, and a path that could step
out of the directory is refused; in both cases the files are not touched.
-/

namespace HttpServer

/-- A directory that is served. -/
structure Mount (ν : Type) where
  /-- The path of the directory. -/
  root : String
  /-- The paths that are mapped start with this. -/
  stem : String
  methods : MountMethods := .readOnly
  /-- Whether the action on this request is allowed. -/
  allows : Action ν Bool := pure true

namespace Mount

variable {ν : Type}

/-- The name that mounts give themselves. -/
def serverName : String := "hearth"

/-- The path of a request as seen from the directory: without the stem and leading separators. -/
def relativePath (m : Mount ν) (path : String) : String :=
  let rest := (m.stem.toList.isPrefixOf? path.toList).getD path.toList
  String.ofList (rest.dropWhile fun c => c == '/' || c == '\\')

/-- The file that the path of a request leads to. -/
def filePath (m : Mount ν) (path : String) : String := joinPath m.root (m.relativePath path)

/-- The status that answers a failed use of the files. -/
def statusOf (e : IoError) : Nat :=
  match e.kind with
  | .notFound => 404
  | .permissionDenied => 403
  | _ => 500

/-- Answers a failed use of the files. -/
def sendFailure (e : IoError) : Handling ν Unit := Action.send (.status (statusOf e))

def sendFile (path : String) : Handling ν Unit := do
  match ← Action.file (.openRead path) with
  | .error e => sendFailure e
  | .ok .directory => Action.send (.status 404)
  | .ok (.file data) =>
    Action.change (.trySetField "Content-Type" (mediaType path))
    Action.change (.setCode 200)
    Action.send (.reader (Incoming.ofBytes data) data.length)

/-- Describes a file as sending it would. -/
def describeFile (path : String) : Handling ν Unit := do
  match ← Action.file (.find path) with
  | .error e => sendFailure e
  | .ok .directory => Action.send (.status 404)
  | .ok (.file data) =>
    Action.change (.setCode 200)
    Action.change (.setField "Content-Length" (decimal data.length))
    Action.change (.trySetField "Content-Type" (mediaType path))
    Action.send .finish

/-- Creates a file and fills it from the body of the request. -/
def fillFile (path : String) : Handling ν Unit := do
  match ← Action.file (.create path) with
  | .error e => sendFailure e
  | .ok file =>
    let _ ← Action.readBody { Sink.greedy with file := some file } 0
    Action.send (.status 204)

/-- Writes a file from a body of which the length is known. -/
def writeFile (path : String) : Handling ν Unit := do
  let view ← Action.look
  let header := view.request.map Request.header
  if (header.bind RequestHeader.contentLength?).isNone then throw (.body .lengthRequired)
  if header.any RequestHeader.expectsContinue then Action.send .interim
  fillFile path

def removeFile (path : String) : Handling ν Unit := do
  match ← Action.file (.remove path) with
  | .error e => sendFailure e
  | .ok () => Action.send (.status 204)

def listMethods (m : Mount ν) : Handling ν Unit := do
  Action.change (.trySetField "Allow" m.methods.allowValue)
  Action.change (.trySetField "Server" serverName)
  Action.change (.setCode 200)
  Action.send .finish

/-- The action of a method on a file. -/
def act (m : Mount ν) (method : MountMethod) (path : String) : Handling ν Unit :=
  match method with
  | .get => sendFile path
  | .head => describeFile path
  | .put => writeFile path
  | .post => writeFile path
  | .delete => removeFile path
  | .options => m.listMethods

/-- Goes on once the veto has spoken. -/
def proceed (m : Mount ν) (method : MountMethod) (allowed : Bool) (view : View) :
    Handling ν Unit :=
  if !allowed then
    if !view.hasConcluded then Action.send (.status 403) else pure ()
  else if isTraversal view.path then Action.send (.status 403)
  else m.act method (m.filePath view.path)

def handler (m : Mount ν) (method : MountMethod) : Handling ν Unit := do
  let allowed ← m.allows
  m.proceed method allowed (← Action.look)

end Mount

/-- Registers a mount, one route per method. -/
def Router.mountDirectory {ν : Type} (r : Router (Handler ν)) (m : Mount ν)
    (priority : Int := Router.mountPriority) : Except RouteError (Router (Handler ν)) :=
  r.mount m.stem m.methods m.handler priority

end HttpServer
