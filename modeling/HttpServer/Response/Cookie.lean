import HttpServer.Text.Number

/-!
# Outgoing cookies

A cookie is written as `name=value` followed by its attributes, in a fixed order and each behind a
semicolon and a space.
-/

namespace HttpServer

/-- Which requests of other sites a cookie goes with. -/
inductive SameSite
  | strict | lax | none
  deriving DecidableEq

def SameSite.name : SameSite → String
  | .strict => "Strict"
  | .lax => "Lax"
  | .none => "None"

/-- The rule that an attribute's value stands for. -/
def SameSite.ofName? (name : String) : Option SameSite :=
  [.strict, .lax, .none].find? fun rule => rule.name == name

/-- A cookie that a response sets. -/
structure Cookie where
  name : String := ""
  value : String := ""
  domain : Option String := none
  path : Option String := none
  /-- The date on which the cookie ends, written as on the wire. -/
  expires : Option String := none
  /-- The seconds after which the cookie ends. -/
  maxAge : Option Int := none
  secure : Bool := false
  httpOnly : Bool := false
  sameSite : Option SameSite := none
  deriving DecidableEq

namespace Cookie

def decimalInt : Int → String
  | .ofNat n => decimal n
  | .negSucc n => "-" ++ decimal (n + 1)

/-- The attributes that are present, in the order in which they are written. -/
def attributes (c : Cookie) : List String :=
  (c.domain.map ("Domain=" ++ ·)).toList ++
  (c.path.map ("Path=" ++ ·)).toList ++
  (c.expires.map ("Expires=" ++ ·)).toList ++
  (c.maxAge.map fun seconds => "Max-Age=" ++ decimalInt seconds).toList ++
  (if c.secure then ["Secure"] else []) ++
  (if c.httpOnly then ["HttpOnly"] else []) ++
  (c.sameSite.map fun site => "SameSite=" ++ site.name).toList

/-- The value of the line that sets the cookie. -/
def render (c : Cookie) : String :=
  c.attributes.foldl (fun line part => line ++ "; " ++ part) (c.name ++ "=" ++ c.value)

end Cookie

end HttpServer
