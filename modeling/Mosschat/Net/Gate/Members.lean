import Mathlib.Data.Finset.Card
import Mosschat.Library.Numeral
import Mosschat.Library.TextFile
import Mosschat.Net.Diag

/-!
Owns what a gate goes by when it lets a house in or refuses it, from `gate/mod.rs`: the member
list, with the reader of the file it is kept in, and the codes of its refusals.

Does not own the file, of which it takes the text, nor who asks the list.
-/

namespace Mosschat.Net.Gate

open Mosschat.Core Mosschat.Library.Numeral Mosschat.Library.TextCut Mosschat.Library.TextFile
open Mosschat.Net.Diag

namespace limits

def maxRegistrations : Nat := 256

end limits

/-- `ErrorCode`. -/
inductive ErrorCode where
  | refusedNotMember | atCapacity | rateLimited | capExceeded | protocolError

/-- `MemberList`. -/
structure MemberList where
  members : Finset Bytes32

/-- `str::get(start..start + length)`. -/
def getRange (text : List Char) (start length : Nat) : Option (List Char) :=
  (front start text).bind fun skipped => front length (text.drop skipped.length)

/-- `u8::from_str_radix(_, 16)`. -/
def fromStrRadix16 (text : List Char) : Option UInt8 :=
  let digits := match text with
    | '+' :: rest => rest
    | _ => text
  match readNumber 16 none true 256 digits with
  | some (number, []) => some (UInt8.ofNat number)
  | _ => none

/-- The loop of `decode_hex32`. -/
def hexBytes (s : List Char) (start : Nat) : (count : Nat) → Option (List.Vector UInt8 count)
  | 0 => some .nil
  | count + 1 => do
    let byte ← (getRange s start 2).bind fromStrRadix16
    let rest ← hexBytes s (start + 2) count
    pure (byte ::ᵥ rest)

/-- `decode_hex32`. -/
def decodeHex32 (s : List Char) : Option Bytes32 :=
  if byteLength s ≠ 64 then none else hexBytes s 0 32

/-- `str::trim`. -/
def trim (line : List Char) : List Char :=
  ((line.dropWhile isWhitespace).reverse.dropWhile isWhitespace).reverse

namespace MemberList

/-- `MemberList::contains`. -/
def contains (list : MemberList) (key : Bytes32) : Bool := decide (key ∈ list.members)

/-- What a line that is no comment adds, or the error it is. -/
def loadKey (members : Finset Bytes32) (line : List Char) : Except (List Piece) (Finset Bytes32) :=
  match decodeHex32 line with
  | none => .error [.text "bad member key line: ", .debug (String.ofList line)]
  | some key => .ok (insert key members)

/-- One turn of the loop of `MemberList::load`. -/
def loadLine (members : Finset Bytes32) (line : List Char) : Except (List Piece) (Finset Bytes32) :=
  let line := trim line
  if line = [] ∨ line.head? = some '#' then .ok members else loadKey members line

/-- `MemberList::load`, of the text of the file. -/
def load (text : List Char) : Except (List Piece) MemberList := do
  let members ← (lines text).foldlM loadLine ∅
  if limits.maxRegistrations < members.card then
    .error [.text "member list has ", .display (toString members.card),
      .text " entries, more than the ", .display (toString limits.maxRegistrations),
      .text " slot table can ever seat"]
  else .ok ⟨members⟩

end MemberList

end Mosschat.Net.Gate
