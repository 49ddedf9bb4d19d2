/-
Internet addresses as text.

`ipAddress` reads four decimal octets, or else groups of hexadecimal digits with
at most one run of zero groups left out, an address of four octets at the end and
a scope behind `%`.  Interpreters differ on whether an IPv4 address inside an IPv6
one counts for `isLoopback`; `mapped` says what this one does.
-/
import SzlRouter.Numeral

namespace Py

inductive IpAddress
  | v4 (ip : ℕ)
  | v6 (ip : ℕ)
  deriving DecidableEq

namespace IpAddress

/-- `_parse_octet`. -/
def parseOctet (s : Str) : Option ℕ :=
  if s = [] ∨ s.all Str.isDigit = false then none
  else if 3 < s.length then none
  else if s ≠ lit "0" ∧ s.head? = some (chr '0') then none
  else if 255 < digitsVal s then none
  else some (digitsVal s)

/-- `IPv4Address._ip_int_from_string`. -/
def parseOctets (s : Str) : Option ℕ :=
  match Str.split (chr '.') s with
  | [a, b, c, d] => do
    let a ← parseOctet a
    let b ← parseOctet b
    let c ← parseOctet c
    let d ← parseOctet d
    return ((a * 256 + b) * 256 + c) * 256 + d
  | _ => none

/-- The value of a hexadecimal digit. -/
def hexDigit (c : CodePoint) : Option ℕ :=
  if 48 ≤ c.val ∧ c.val ≤ 57 then some (c.val - 48)
  else if 65 ≤ c.val ∧ c.val ≤ 70 then some (c.val - 55)
  else if 97 ≤ c.val ∧ c.val ≤ 102 then some (c.val - 87)
  else none

/-- `_parse_hextet`. -/
def parseHextet (s : Str) : Option ℕ :=
  if s = [] ∨ 4 < s.length then none
  else (s.mapM hexDigit).map fun ds => ds.foldl (fun n d => n * 16 + d) 0

/-- `"%x" % n`. -/
def hexText (n : ℕ) : Str := (Nat.toDigits 16 n).map chr

/-- The parts between colons, with an address of four octets at the end written as two. -/
def hexParts (s : Str) : Option (List Str) :=
  let parts := Str.split (chr ':') s
  if parts.length < 3 then none
  else if chr '.' ∈ parts.getLastD [] then
    (parseOctets (parts.getLastD [])).map fun ip =>
      parts.dropLast ++ [hexText (ip / 65536), hexText (ip % 65536)]
  else some parts

/-- The places strictly inside where nothing stands between two colons. -/
def skips (parts : List Str) : List ℕ :=
  (List.range parts.length).filter fun i => 0 < i ∧ i + 1 < parts.length ∧ parts[i]? = some []

/-- The number that groups of sixteen bits make up. -/
def joinHextets (groups : List ℕ) : ℕ := groups.foldl (fun n h => n * 65536 + h) 0

/-- `IPv6Address._ip_int_from_string`. -/
def parseHextets (s : Str) : Option ℕ := do
  let parts ← hexParts s
  if 9 < parts.length then none
  else match skips parts with
  | [] =>
    if parts.length ≠ 8 then none
    else (parts.mapM parseHextet).map joinHextets
  | [i] =>
    -- an empty part at either end has to be one of the two colons of the run
    let hi := if parts.headD [] = [] then i - 1 else i
    let lo := if parts.getLastD [] = [] then parts.length - i - 2 else parts.length - i - 1
    if parts.headD [] = [] ∧ hi ≠ 0 then none
    else if parts.getLastD [] = [] ∧ lo ≠ 0 then none
    else if 7 < hi + lo then none
    else do
      let high ← (parts.take hi).mapM parseHextet
      let low ← (parts.drop (parts.length - lo)).mapM parseHextet
      return joinHextets (high ++ List.replicate (8 - (hi + lo)) 0 ++ low)
  | _ => none

/-- `IPv6Address`, the scope left out. -/
def parseScoped (s : Str) : Option ℕ :=
  if chr '/' ∈ s then none
  else
    let (addr, found, scope) := Str.partition (chr '%') s
    if found ∧ (scope = [] ∨ chr '%' ∈ scope) then none
    else parseHextets addr

/-- `ipaddress.ip_address`. -/
def ipAddress (s : Str) : Option IpAddress :=
  match parseOctets s with
  | some ip => some (.v4 ip)
  | none => (parseScoped s).map .v6

/-- `ip in 127.0.0.0/8`. -/
def loopbackNetwork (ip : ℕ) : Bool := ip / 2 ^ 24 = 127

/-- `is_loopback`. -/
def isLoopback (mapped : Bool) : IpAddress → Bool
  | .v4 ip => loopbackNetwork ip
  | .v6 ip => if mapped ∧ ip / 2 ^ 32 = 0xFFFF then loopbackNetwork (ip % 2 ^ 32) else ip = 1

example : ipAddress (lit "::1") = some (.v6 1) := by decide
example : ipAddress (lit "fe80::127.0.0.1%eth0") =
    some (.v6 0xFE80000000000000000000007F000001) := by decide
example : ipAddress (lit "127.0.0.01") = none := by decide

end IpAddress

end Py
