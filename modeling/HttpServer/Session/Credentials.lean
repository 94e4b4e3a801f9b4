import HttpServer.Text.Base64
import HttpServer.Text.Blank
import HttpServer.Text.Split

/-!
# Credentials of basic authentication

The value is the scheme, a space, and user and password joined by a colon in base 64. The first
colon ends the user, so a password may hold colons. A value of another scheme is no fault: it holds
no credentials.
-/

namespace HttpServer

/-- Why a value holds no credentials although it should. -/
inductive CredentialFault
  /-- Scheme and credentials are not both there. -/
  | malformedField
  | invalidBase64
  | notText
  | missingColon
  deriving DecidableEq

def CredentialFault.message : CredentialFault → String
  | .malformedField => "Authorization header field is malformed"
  | .invalidBase64 => "Invalid base64 in Authorization"
  | .notText => "Decoded credentials are not valid UTF-8"
  | .missingColon => "Decoded base64 does not contain colon - empty passwords still need it"

/-- A user and a password. -/
structure Credentials where
  user : String
  password : String
  deriving DecidableEq

namespace Credentials

/-- The user and the password of a text with a colon between them. -/
def ofText (cs : List Char) : Except CredentialFault Credentials :=
  match splitFirst? (· == ':') cs with
  | none => .error .missingColon
  | some (user, password) =>
    .ok { user := String.ofList user, password := String.ofList password }

/-- The credentials that base 64 holds. -/
def ofBase64 (cs : List Char) : Except CredentialFault Credentials :=
  match Base64.decode cs with
  | none => .error .invalidBase64
  | some bytes =>
    match Utf8.decode bytes with
    | .error _ => .error .notText
    | .ok text => ofText text

/-- The credentials of a header value, `none` if it is of another scheme. -/
def decode (value : String) : Except CredentialFault (Option Credentials) :=
  match splitFirst? (· == ' ') value.toList with
  | none => .error .malformedField
  | some (scheme, encoded) =>
    if encoded = [] then .error .malformedField
    else if scheme ≠ "Basic".toList then .ok none
    else (ofBase64 (trim encoded)).map some

end Credentials

end HttpServer
