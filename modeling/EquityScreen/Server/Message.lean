import EquityScreen.Json.Writer
import EquityScreen.Server.Handler

/-!
# Messages over HTTP

A message has a head of lines, an empty line and a body. The first line of a request names its method and its target. Of the
headers two are read: the type of the body and its length in bytes. A request is complete when its body has that length. An
answer closes the connection, so that one connection carries one request.
-/

namespace EquityScreen

/-- What has come of a request so far. -/
inductive Arrival where
  /-- More bytes are needed. -/
  | incomplete
  /-- The bytes are no request. -/
  | malformed
  | complete (r : HttpRequest)

namespace Server

/-- The bytes of the head and of what follows the empty line, once the empty line is there. -/
def splitHead? : List UInt8 → Option (List UInt8 × List UInt8)
  | 13 :: 10 :: 13 :: 10 :: rest => some ([], rest)
  | b :: rest => (splitHead? rest).map fun (head, body) => (b :: head, body)
  | [] => none

/-- The text of bytes, if they are one. -/
def textOf? (bytes : List UInt8) : Option String := String.fromUTF8? ⟨bytes.toArray⟩

/-- The name of a header in small letters, and its value. -/
def headerOf (line : String) : String × String :=
  let cs := line.toList
  (Text.foldAscii (String.ofList (cs.takeWhile (· ≠ ':'))), String.ofList (Text.trim ((cs.dropWhile (· ≠ ':')).drop 1)))

/-- The request of bytes that have arrived. -/
def arrival (bytes : List UInt8) : Arrival :=
  match splitHead? bytes with
  | none => .incomplete
  | some (head, rest) =>
    match (textOf? head).map (·.splitOn "\r\n") with
    | none | some [] => .malformed
    | some (first :: headers) =>
      let named := headers.map headerOf
      let length := ((named.lookup "content-length").map String.toNat?).getD (some 0)
      match first.splitOn " ", length with
      | [method, target, _], some n =>
        if rest.length < n then .incomplete
        else
          match textOf? (rest.take n) with
          | some body => .complete ⟨method, target, named.lookup "content-type", body⟩
          | none => .malformed
      | _, _ => .malformed

/-- The phrase of a status. -/
def phrase : Nat → String
  | 200 => "OK"
  | 400 => "Bad Request"
  | 404 => "Not Found"
  | 405 => "Method Not Allowed"
  | 415 => "Unsupported Media Type"
  | 422 => "Unprocessable Entity"
  | _ => "Internal Server Error"

/-- The bytes of an answer; `elapsed` is how many milliseconds it took. -/
def answerBytes (elapsed : Nat) (a : HttpAnswer) : ByteArray :=
  let body := ((a.body.document? elapsed).map Json.compact).getD ""
  let contentType := match a.body with
    | .empty => []
    | _ => ["content-type: application/json"]
  let head := [s!"HTTP/1.1 {a.status} {phrase a.status}", s!"access-control-allow-origin: {allowedOrigin}",
    "access-control-allow-methods: *", "access-control-allow-headers: *"] ++ contentType ++
    [s!"content-length: {body.utf8ByteSize}", "connection: close", "", body]
  (Text.join "\r\n" head).toUTF8

end Server

end EquityScreen
