/-
Relay URLs: a WebSocket scheme, an authority with an optional port and printable
ASCII within a bound.
-/
import Mathlib
import Hq.Fallible

namespace Hq

def decimalValue (digits : List Char) : Nat :=
  digits.foldl (fun value digit => 10 * value + (digit.toNat - 48)) 0

def validPort (port : List Char) : Bool :=
  !port.isEmpty && port.all Char.isDigit && decimalValue port < 2 ^ 16

/-- What stands before and after the first occurrence of a character. -/
def splitOnce (separator : Char) (chars : List Char) :
    Option (List Char × List Char) :=
  if chars.contains separator then
    some (chars.takeWhile (· ≠ separator),
      (chars.dropWhile (· ≠ separator)).drop 1)
  else none

/-- What stands before and after the last occurrence of a character. -/
def rsplitOnce (separator : Char) (chars : List Char) :
    Option (List Char × List Char) :=
  (splitOnce separator chars.reverse).map fun parts =>
    (parts.2.reverse, parts.1.reverse)

def validAuthority (suffix : List Char) : Bool :=
  let authority := suffix.takeWhile fun char => char ≠ '/' && char ≠ '?'
  if suffix.contains '#' then false
  else if authority.isEmpty || authority.contains '@' then false
  else
    match authority with
    | '[' :: bracketed =>
        match splitOnce ']' bracketed with
        | none => false
        | some (host, remainder) => !host.isEmpty &&
            match remainder with
            | [] => true
            | ':' :: port => validPort port
            | _ => false
    | _ =>
        if authority.contains '[' || authority.contains ']' then false
        else
          match rsplitOnce ':' authority with
          | none => true
          | some (host, port) =>
              !host.isEmpty && !host.contains ':' && validPort port

def maxRelayUrlBytes : Nat := 2048

def validateUrl (value : List Char) : Bool :=
  let authority :=
    if "ws://".toList.isPrefixOf value then validAuthority (value.drop 5)
    else if "wss://".toList.isPrefixOf value then validAuthority (value.drop 6)
    else false
  authority && decide (value.length ≤ maxRelayUrlBytes) &&
    value.all fun char => 32 < char.toNat && char.toNat < 127

/-- An exact relay URL.  The session and the store check the same shape, so a
value of this type passes both. -/
@[ext] structure RelayUrl where
  chars : List Char
  valid : validateUrl chars = true
deriving DecidableEq

namespace RelayUrl

def field (url : RelayUrl) : List Int :=
  url.chars.map fun char => (char.toNat : Int)

theorem field_injective : Function.Injective field := by
  intro left right h
  ext1
  refine List.map_injective_iff.2 ?_ h
  intro a b hab
  exact Char.toNat_inj.1 (Int.ofNat_inj.1 hab)

instance : LinearOrder RelayUrl := LinearOrder.lift' field field_injective

end RelayUrl

end Hq
