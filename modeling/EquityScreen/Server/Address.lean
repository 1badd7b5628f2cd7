/-!
# Addresses of a server

The address of a server is an address of version 4, four numbers below 256 with points between, or one of version 6 in
brackets, eight groups of up to four hexadecimal digits with colons between; then a colon and a port. In version 6 one run
of zero groups may be left out between two colons, the last two groups may be written as an address of version 4, and the
number of a scope may follow after a percent sign.
-/

namespace EquityScreen

/-- A decimal number below a limit, without leading zeros unless they are allowed. -/
def isNumberBelow (limit : Nat) (leadingZeros : Bool) (s : String) : Bool :=
  let cs := s.toList
  !cs.isEmpty && cs.all Char.isDigit && (leadingZeros || cs.length == 1 || cs.head? != some '0') && s.toNat?.any (· < limit)

/-- An address of version 4. -/
def isAddressV4 (s : String) : Bool :=
  let parts := s.splitOn "."
  parts.length == 4 && parts.all (isNumberBelow 256 false)

/-- A group of an address of version 6. -/
def isGroup (s : String) : Bool :=
  let hex (c : Char) : Bool := c.isDigit || ('a' ≤ c && c ≤ 'f') || ('A' ≤ c && c ≤ 'F')
  1 ≤ s.length && s.length ≤ 4 && s.all hex

/-- How many groups the texts stand for; the last one may be an address of version 4. -/
def groupCount? : List String → Option Nat
  | [] => some 0
  | [last] => if isGroup last then some 1 else if isAddressV4 last then some 2 else none
  | first :: rest => if isGroup first then (groupCount? rest).map (· + 1) else none

/-- An address of version 6 without its brackets. -/
def isAddressV6 (s : String) : Bool :=
  let groups (part : String) : Option Nat := if part.isEmpty then some 0 else groupCount? (part.splitOn ":")
  match s.splitOn "::" with
  | [all] => groups all == some 8 && !all.isEmpty
  | [front, back] =>
    match groups front, groups back with
    | some n, some m => n + m ≤ 7 && !front.contains '.'
    | _, _ => false
  | _ => false

/-- An address of either version with a port. -/
def isSocketAddress (s : String) : Bool :=
  match s.toList with
  | '[' :: rest =>
    let inside := String.ofList (rest.takeWhile (· ≠ ']'))
    match rest.dropWhile (· ≠ ']') with
    | ']' :: ':' :: port =>
      let isAddress := match inside.splitOn "%" with
        | [address] => isAddressV6 address
        | [address, scope] => isAddressV6 address && isNumberBelow (Nat.pow 2 32) true scope
        | _ => false
      isAddress && isNumberBelow 65536 true (String.ofList port)
    | _ => false
  | _ =>
    match s.splitOn ":" with
    | [address, port] => isAddressV4 address && isNumberBelow 65536 true port
    | _ => false

end EquityScreen
