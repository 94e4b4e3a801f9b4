import HttpServer.Request.NameMap

/-!
# Session storage

Sessions are kept by their ids. With an idle timeout, a session that nobody looked up for that long
has expired: the next lookup reports so once and forgets it. Creating a session sweeps out every
expired one first. The clock is given to each operation, in nanoseconds, and so is the id of a new
session, which must not have been used before.
-/

namespace HttpServer

/-- What looking for the session of a request came to. -/
inductive SessionState
  | live
  /-- The storage does not know the id. -/
  | notFound
  /-- There is no id. -/
  | noSession
  /-- The session had expired. -/
  | timedOut
  deriving DecidableEq

/-- A session that carries named texts. -/
structure BasicSession where
  id : String
  attributes : NameMap := .empty
  deriving DecidableEq

namespace BasicSession

def get? (s : BasicSession) (name : String) : Option String := s.attributes.get? name

/-- Puts a text under a name; the one that was there is given back. -/
def insert (s : BasicSession) (name value : String) : BasicSession × Option String :=
  ({ s with attributes := s.attributes.insert name value }, s.get? name)

/-- Takes the text under a name out and gives it back. -/
def remove (s : BasicSession) (name : String) : BasicSession × Option String :=
  ({ s with attributes := s.attributes.erase name }, s.get? name)

end BasicSession

/-- A stored session and when it was last touched. -/
structure SessionEntry (σ : Type) where
  id : String
  session : σ
  lastAccess : Nat
  deriving DecidableEq

/-- Sessions by id. -/
structure SessionStore (σ : Type) where
  entries : List (SessionEntry σ) := []
  /-- How long a session may stay untouched, in nanoseconds; without bound if absent. -/
  idleTimeout : Option Nat := none
  deriving DecidableEq

namespace SessionStore

variable {σ : Type}

/-- The time of an entry has run out. -/
def isExpired (s : SessionStore σ) (entry : SessionEntry σ) (now : Nat) : Bool :=
  s.idleTimeout.any fun timeout => timeout ≤ now - entry.lastAccess

def find? (s : SessionStore σ) (id : String) : Option (SessionEntry σ) :=
  s.entries.find? fun entry => entry.id == id

def delete (s : SessionStore σ) (id : String) : SessionStore σ :=
  { s with entries := s.entries.filter fun entry => entry.id != id }

def clear (s : SessionStore σ) : SessionStore σ := { s with entries := [] }

def size (s : SessionStore σ) : Nat := s.entries.length

/-- Forgets every expired session and counts them. -/
def sweep (s : SessionStore σ) (now : Nat) : SessionStore σ × Nat :=
  let kept := s.entries.filter fun entry => !s.isExpired entry now
  ({ s with entries := kept }, s.entries.length - kept.length)

def modify (s : SessionStore σ) (id : String) (change : SessionEntry σ → SessionEntry σ) :
    SessionStore σ :=
  { s with entries := s.entries.map fun entry => if entry.id == id then change entry else entry }

/-- Stores a new session under an unused id, after a sweep. The clock is read for each of the
two. -/
def create (s : SessionStore σ) (id : String) (session : σ) (swept stored : Nat) :
    SessionStore σ :=
  let kept := (s.sweep swept).1
  { kept with entries := kept.entries ++ [{ id, session, lastAccess := stored }] }

/-- Looks a session up: a live one is touched, an expired one forgotten. -/
def lookup (s : SessionStore σ) (id : String) (now : Nat) :
    SessionStore σ × Except SessionState σ :=
  match s.find? id with
  | none => (s, .error .notFound)
  | some entry =>
    if s.isExpired entry now then (s.delete id, .error .timedOut)
    else (s.modify id fun entry => { entry with lastAccess := now }, .ok entry.session)

/-- The session of an id, if it is live. -/
def get (s : SessionStore σ) (id : String) (now : Nat) : SessionStore σ × Option σ :=
  match s.lookup id now with
  | (s, .ok session) => (s, some session)
  | (s, .error _) => (s, none)

/-- Replaces a stored session and touches it; false if the id is unknown. -/
def set (s : SessionStore σ) (id : String) (session : σ) (now : Nat) : SessionStore σ × Bool :=
  match s.find? id with
  | none => (s, false)
  | some _ => (s.modify id fun entry => { entry with session, lastAccess := now }, true)

/-- What the id that a client sent refers to. -/
def state (s : SessionStore σ) (id : Option String) (now : Nat) :
    SessionStore σ × SessionState :=
  match id with
  | none => (s, .noSession)
  | some id =>
    match s.lookup id now with
    | (s, .ok _) => (s, .live)
    | (s, .error state) => (s, state)

/-- What an id refers to for a storage that can tell only whether a session is there. -/
def plainState (s : SessionStore σ) (id : Option String) (now : Nat) :
    SessionStore σ × SessionState :=
  match id with
  | none => (s, .noSession)
  | some id =>
    match s.get id now with
    | (s, some _) => (s, .live)
    | (s, none) => (s, .notFound)

end SessionStore

end HttpServer
