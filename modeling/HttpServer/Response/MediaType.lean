import HttpServer.Text.Split

/-!
# Media types of files

The media type of a file is guessed from the extension of its name: what follows the last dot,
unless that dot is the first character. The case of the extension does not matter.
-/

namespace HttpServer

/-- The last component of a path; separators and components `.` at its end do not count. -/
def fileName? (path : String) : Option String :=
  let parts := (splitAll (· == '/') path.toList).filter fun part => part ≠ [] && part ≠ ['.']
  match parts.getLast? with
  | some ['.', '.'] => none
  | some name => some (String.ofList name)
  | none => none

/-- What follows the last dot of a file name. -/
def extension? (path : String) : Option String :=
  (fileName? path).bind fun name =>
    match splitFirst? (· == '.') name.toList.reverse with
    | some (after, before) => if before = [] then none else some (String.ofList after.reverse)
    | none => none

def binaryType : String := "application/octet-stream"

def plainTextType : String := "text/plain; charset=utf-8"

/-- The media type that belongs to a file extension in lower case. -/
def typeOfExtension : String → String
  | "html" => "text/html; charset=utf-8"
  | "htm" => "text/html; charset=utf-8"
  | "css" => "text/css; charset=utf-8"
  | "js" => "application/javascript; charset=utf-8"
  | "mjs" => "application/javascript; charset=utf-8"
  | "json" => "application/json"
  | "txt" => plainTextType
  | "csv" => "text/csv; charset=utf-8"
  | "xml" => "text/xml"
  | "png" => "image/png"
  | "jpg" => "image/jpeg"
  | "jpeg" => "image/jpeg"
  | "gif" => "image/gif"
  | "bmp" => "image/bmp"
  | "svg" => "image/svg+xml"
  | "pdf" => "application/pdf"
  | "woff" => "font/woff"
  | "woff2" => "font/woff2"
  | _ => binaryType

def mediaType (path : String) : String :=
  match extension? path with
  | some extension => typeOfExtension (String.ofList (extension.toList.map Char.toLower))
  | none => binaryType

end HttpServer
