import UavBluetooth.Lib.Fallible
import UavBluetooth.Util.Numbers
import UavBluetooth.Util.Text

set_option autoImplicit false

/-! # Member paths

`parse_member_path` of `payload_codec.cpp`: dotted ROS fields, each with an optional array index
or slice.
-/

namespace UavBluetooth.Bridge

open Fallible Util

/-- What the codec and the standard library throw, with the text of `what()`. -/
inductive StdException where
  | invalidArgument (what : String)
  | outOfRange (what : String)
  | lengthError (what : String)
  | runtimeError (what : String)
  deriving DecidableEq, Repr

/-- The part of a segment in brackets. A slice has a positive step. -/
inductive Selector where
  | absent
  | index (n : Nat)
  | slice (start stop : Option Nat) (step : ℕ+)
  deriving DecidableEq

/-- Parsed segment of a dotted member path like `pose.pose.position.x`. -/
structure PathSegment where
  name : String
  selector : Selector := .absent
  deriving DecidableEq

/-- `std::stoi`: the value and what is left of the text. -/
def stoi (text : List Char) : Except StdException (Int × List Char) :=
  let (negative, unsigned) := takeSign (text.dropWhile isCSpace)
  let digits := unsigned.takeWhile Char.isDigit
  let value : Int := if negative then -ofDigits 10 digits else ofDigits 10 digits
  if digits = [] then .error (.invalidArgument "stoi")
  else if -2 ^ 31 ≤ value ∧ value < 2 ^ 31 then .ok (value, unsigned.dropWhile Char.isDigit)
  else .error (.outOfRange "stoi")

/-- Parse an array selector index without trailing text. -/
def parseNonNegativeInt (raw context : List Char) : Except StdException Nat := do
  let token := Strip.strip isSpace raw
  require (token ≠ [])
    (.invalidArgument ("Missing integer in member path segment: " ++ String.ofList context))
  let (value, rest) ← stoi token
  require (rest = [] && 0 ≤ value)
    (.invalidArgument
      ("Invalid non-negative integer in member path segment: " ++ String.ofList context))
  return value.toNat

/-- A bound of a slice, which may be blank. -/
def parseBound (part context : List Char) : Except StdException (Option Nat) :=
  if Strip.strip isSpace part = [] then .ok none
  else some <$> parseNonNegativeInt part context

def parseStep (part context : List Char) : Except StdException ℕ+ := do
  match ← parseBound part context with
  | none => .ok 1
  | some step =>
      if h : 0 < step then .ok ⟨step, h⟩
      else .error (.invalidArgument
        ("Slice step must be positive in member path segment: " ++ String.ofList context))

def parseSelector (selector context : List Char) : Except StdException Selector :=
  match selector.splitOn ':' with
  | [index] => .index <$> parseNonNegativeInt index context
  | [start, stop] => do
      return .slice (← parseBound start context) (← parseBound stop context) 1
  | [start, stop, step] => do
      let start ← parseBound start context
      let stop ← parseBound stop context
      return .slice start stop (← parseStep step context)
  | _ => .error (.invalidArgument
      ("Invalid slice syntax in member path segment: " ++ String.ofList context))

def parseSegment (raw : List Char) : Except StdException PathSegment := do
  let invalid := StdException.invalidArgument
    ("Invalid member path segment: " ++ String.ofList raw)
  let name := raw.takeWhile (· ≠ '[')
  let segment ← match raw.dropWhile (· ≠ '[') with
    | [] => pure ⟨String.ofList name, .absent⟩
    | _ :: bracketed => do
        -- The first closing bracket has to end the segment.
        require (bracketed.dropWhile (· ≠ ']') = [']']) invalid
        let selector ← parseSelector (bracketed.takeWhile (· ≠ ']')) raw
        pure (PathSegment.mk (String.ofList name) selector)
  require (name ≠ []) invalid
  return segment

/-- The texts between the dots; a dot at the end opens no segment. -/
def rawSegments (path : List Char) : List (List Char) :=
  let pieces := path.splitOn '.'
  if pieces.getLast? = some [] then pieces.dropLast else pieces

/-- Parse and validate dotted ROS fields, array indices and slices. -/
def parseMemberPath (path : String) : Except StdException (List PathSegment) := do
  require (path ≠ "") (.invalidArgument "Member path must not be empty")
  (rawSegments path.toList).mapM parseSegment

theorem rawSegments_ne_nil {path : List Char} (h : path ≠ []) : rawSegments path ≠ [] := by
  have hjoin : ['.'].intercalate (path.splitOn '.') = path := List.intercalate_splitOn '.'
  have hne : path.splitOn '.' ≠ [] := List.splitOn_ne_nil '.' path
  simp only [rawSegments]
  split
  · rename_i hlast
    intro hnil
    -- A single empty piece is an empty path.
    have hsingle : path.splitOn '.' = [[]] := by
      rw [← List.dropLast_append_getLast? _ hlast, hnil, List.nil_append]
    rw [hsingle] at hjoin
    exact h hjoin.symm
  · exact hne

theorem parseMemberPath_ne_nil {path : String} {segments : List PathSegment}
    (h : parseMemberPath path = .ok segments) : segments ≠ [] := by
  simp only [parseMemberPath, bind_eq_ok, require_eq_ok, decide_eq_true_eq] at h
  obtain ⟨_, hpath, hsegments⟩ := h
  have hraw : rawSegments path.toList ≠ [] :=
    rawSegments_ne_nil fun hnil => hpath (String.toList_eq_nil_iff.mp hnil)
  obtain ⟨raw, rest, hcons⟩ := List.exists_cons_of_ne_nil hraw
  rw [hcons, List.mapM_cons] at hsegments
  simp only [bind_eq_ok, pure_eq_ok] at hsegments
  obtain ⟨segment, _, rest', _, rfl⟩ := hsegments
  exact List.cons_ne_nil segment rest'

example : (parseMemberPath "poses[1].position.x").toOption =
    some [⟨"poses", .index 1⟩, ⟨"position", .absent⟩, ⟨"x", .absent⟩] := by decide +kernel

end UavBluetooth.Bridge
