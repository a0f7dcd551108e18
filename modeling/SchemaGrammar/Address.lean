import SchemaGrammar.Failure
import SchemaGrammar.Text.Hex
import SchemaGrammar.Text.Ranges
import SchemaGrammar.Text.Split

set_option autoImplicit false

/-! # Addresses of documents

An address may have a scheme up to a colon and, behind two slashes, an authority that names a
host. Anything goes elsewhere, but a host in brackets has to be numeric, and an authority may
hold no letter that stands for one of the marks that divide an address. -/

namespace SchemaGrammar

namespace Address

/-! ## Parts -/

/-- The characters of an address that count. Controls and blanks in front of it do not, nor do
    tabs and line ends anywhere. -/
def significant (cs : List Char) : List Char :=
  (cs.dropWhile fun c => c.toNat ≤ 0x20).filter fun c => c ≠ '\t' && c ≠ '\r' && c ≠ '\n'

def isSchemeChar (c : Char) : Bool :=
  c.isAlphanum || c = '+' || c = '-' || c = '.'

/-- What stands behind the scheme, if there is one. -/
def dropScheme (cs : List Char) : List Char :=
  let scheme := cs.takeWhile (· ≠ ':')
  if cs.contains ':' && (scheme.head?.any Char.isAlpha) && scheme.all isSchemeChar then
    cs.drop (scheme.length + 1)
  else cs

/-- The authority of an address, which is empty if there is none. -/
def authority (cs : List Char) : List Char :=
  match dropScheme (significant cs) with
  | '/' :: '/' :: rest => rest.takeWhile fun c => c ≠ '/' && c ≠ '?' && c ≠ '#'
  | _ => []

/-! ## Numeric hosts -/

/-- A number up to 255, without zeros in front. -/
def isOctet (ds : List Char) : Bool :=
  !ds.isEmpty && ds.length ≤ 3 && ds.all Char.isDigit && (ds = ['0'] || ds.head? ≠ some '0')
    && ds.foldl (fun n d => n * 10 + (d.toNat - 0x30)) 0 ≤ 255

/-- Four octets. -/
def isShortHost (cs : List Char) : Bool :=
  let octets := Text.splitAt '.' cs
  octets.length == 4 && octets.all isOctet

def isHextet (ds : List Char) : Bool :=
  !ds.isEmpty && ds.length ≤ 4 && ds.all fun d => (Text.hexValue? d).isSome

/-- The last group may be written as four octets, which stand for two groups. -/
def spreadLast (groups : List (List Char)) : List (List Char) :=
  if isShortHost (groups.getLastD []) then groups.dropLast ++ [['0'], ['0']] else groups

/-- One end of the groups around a gap. The gap may be at the end itself. -/
def endGroups (groups : List (List Char)) : List (List Char) :=
  if groups = [[]] then [] else groups

/-- Eight groups, or fewer around one gap. -/
def areGroups : List (List Char) → Bool
  | [] => false
  | first :: rest =>
    let inner := rest.dropLast
    if inner.any List.isEmpty then
      let low := endGroups (first :: inner.takeWhile fun g => !g.isEmpty)
      let high := endGroups ((inner.dropWhile fun g => !g.isEmpty).drop 1 ++ [rest.getLastD []])
      low.all isHextet && high.all isHextet && low.length + high.length ≤ 7
    else (first :: rest).length == 8 && (first :: rest).all isHextet

/-- Groups, and behind a percent sign perhaps a zone. -/
def isLongHost (cs : List Char) : Bool :=
  let (host, zone) := Text.cutAt ['%'] cs
  areGroups (spreadLast (Text.splitAt ':' host))
    && (!cs.contains '%' || (!zone.isEmpty && !zone.contains '%'))

/-- A version in hexadecimal digits, a point and something behind it. -/
def isFutureHost (cs : List Char) : Bool :=
  let version := cs.takeWhile fun c => (Text.hexValue? c).isSome
  match cs.drop version.length with
  | '.' :: _ :: _ => !version.isEmpty
  | _ => false

/-- What is wrong with a host in brackets. -/
def hostFault? : List Char → Option AddressFault
  | 'v' :: rest => if isFutureHost rest then none else some .futureHost
  | cs =>
    if isShortHost cs then some .shortHost
    else if isLongHost cs then none
    else some (.host (String.ofList cs))

/-! ## Faults -/

/-- The letters that stand for a slash, a question mark, a hash, an at sign or a colon, or for a
    text with one in it. -/
def markLookalikes : Text.Ranges :=
  [(0x2047, 0x2049), (0x2100, 0x2101), (0x2105, 0x2106), (0x2A74, 0x2A74), (0xFE13, 0xFE13),
    (0xFE16, 0xFE16), (0xFE55, 0xFE56), (0xFE5F, 0xFE5F), (0xFE6B, 0xFE6B), (0xFF03, 0xFF03),
    (0xFF0F, 0xFF0F), (0xFF1A, 0xFF1A), (0xFF1F, 0xFF20)]

/-- What is wrong with the brackets of an authority and with the host in the first of them. -/
def bracketFault? (cs : List Char) : Option AddressFault :=
  if cs.contains '[' != cs.contains ']' then some .brackets
  else if cs.contains '[' then
    hostFault? (((cs.dropWhile (· ≠ '[')).drop 1).takeWhile (· ≠ ']'))
  else none

/-- What is wrong with an address, if anything is. -/
def fault? (address : String) : Option AddressFault :=
  let cs := authority address.toList
  match bracketFault? cs with
  | some fault => some fault
  | none => if cs.any markLookalikes.holds then some (.lookalike (String.ofList cs)) else none

end Address

end SchemaGrammar
