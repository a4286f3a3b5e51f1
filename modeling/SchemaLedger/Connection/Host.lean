import SchemaLedger.Connection.Address
import SchemaLedger.Connection.Punycode
import SchemaLedger.Text.Percent
/-!
# Hosts

Schemes of the web have hosts that are domains or addresses. Every other
scheme has opaque hosts, which are kept as they are written.
-/

namespace SchemaLedger

inductive UrlError where
  | emptyHost
  | invalidInternationalDomain
  | invalidPort
  | invalidIpv4
  | invalidIpv6
  | invalidDomainCharacter
  | relativeWithoutBase
  deriving DecidableEq, Repr

def UrlError.message : UrlError → String
  | emptyHost => "empty host"
  | invalidInternationalDomain => "invalid international domain name"
  | invalidPort => "invalid port number"
  | invalidIpv4 => "invalid IPv4 address"
  | invalidIpv6 => "invalid IPv6 address"
  | invalidDomainCharacter => "invalid domain character"
  | relativeWithoutBase => "relative URL without a base"

/-- A host. The empty name is the empty host. -/
inductive Host where
  | name (text : String)
  | v4 (address : Nat)
  | v6 (groups : List Nat)
  deriving DecidableEq, Repr

namespace Host

def render : Host → String
  | name text => text
  | v4 address => Address.renderV4 address
  | v6 groups => "[" ++ Address.renderV6 groups ++ "]"

def forbidden (c : Char) : Bool :=
  "\x00\t\n\r #/:<>?@[\\]^|".toList.contains c

/-- The characters that no domain has: those of opaque hosts, the percent sign
and everything that is not seen. -/
def forbiddenInDomain (c : Char) : Bool :=
  forbidden c || c == '%' || c.toNat ≤ 0x20 || c.toNat == 0x7F

def keepVisible (c : Char) : Bool :=
  0x20 ≤ c.toNat && c.toNat ≠ 0x7F

def ofBrackets (text : List Char) : Except UrlError Host :=
  if text.getLast? = some ']' then
    match Address.v6? (text.drop 1).dropLast with
    | some groups => .ok (v6 groups)
    | none => .error .invalidIpv6
  else
    .error .invalidIpv6

def ofOpaque (text : List Char) : Except UrlError Host :=
  if text.head? = some '[' then ofBrackets text
  else if text.any forbidden then .error .invalidDomainCharacter
  else .ok (name (String.ofList (Percent.encode keepVisible text)))

/-- A character of a domain in lower case. This is a part of the mapping of UTS 46: the
letters of Latin-1, Latin Extended-A, Greek and basic Cyrillic whose small forms stand at
a fixed distance, the ignored characters, the full stops and the full-width forms of
ASCII. Other capitals and compatibility forms stay as they are, nothing is composed or
decomposed, and no character is disallowed. -/
def foldChar (c : Char) : List Char :=
  let n := c.toNat
  let shift (d : Nat) := [Char.ofNat (n + d)]
  if 0x41 ≤ n && n ≤ 0x5A then shift 0x20
  else if n == 0xAD || n == 0x200B || n == 0x2060 || n == 0xFEFF then []
  else if n == 0x3002 || n == 0xFF0E || n == 0xFF61 then ['.']
  else if 0xFF01 ≤ n && n ≤ 0xFF5E then
    let a := n - 0xFEE0
    [Char.ofNat (if 0x41 ≤ a && a ≤ 0x5A then a + 0x20 else a)]
  else if 0xC0 ≤ n && n ≤ 0xDE && n ≠ 0xD7 then shift 0x20
  else if 0x100 ≤ n && n ≤ 0x137 && n % 2 == 0 && n ≠ 0x130 then shift 1
  else if 0x139 ≤ n && n ≤ 0x148 && n % 2 == 1 then shift 1
  else if 0x14A ≤ n && n ≤ 0x177 && n % 2 == 0 then shift 1
  else if 0x391 ≤ n && n ≤ 0x3A9 && n ≠ 0x3A2 then shift 0x20
  else if 0x410 ≤ n && n ≤ 0x42F then shift 0x20
  else if 0x400 ≤ n && n ≤ 0x40F then shift 0x50
  else [c]

def asciiLabel (label : List Char) : List Char :=
  if label.all (·.toNat < 0x80) then label
  else "xn--".toList ++ Punycode.encode label

def asciiDomain (text : List Char) : List Char :=
  ['.'].intercalate ((Sql.cut '.' (text.flatMap foldChar)).map asciiLabel)

def ofDomain (text : List Char) : Except UrlError Host :=
  if text.head? = some '[' then ofBrackets text
  else
    match Utf8.decode? (Percent.decode (Utf8.encode (String.ofList text))) with
    | none => .error .invalidInternationalDomain
    | some decoded =>
      let domain := asciiDomain decoded.toList
      if domain.any forbiddenInDomain then .error .invalidInternationalDomain
      else if domain.isEmpty then .error .emptyHost
      else if Address.endsInNumber domain then
        match Address.v4? domain with
        | some address => .ok (v4 address)
        | none => .error .invalidIpv4
      else
        .ok (name (String.ofList domain))

end Host

end SchemaLedger
