import AlertRelay.Text.Encoding

/-! Cutting bytes into lines, and putting lines together. A line that is read
ends with a line feed, before which one carriage return is dropped; what
follows the last line feed is a line if it is not empty. -/

namespace AlertRelay

/-- The parts that a mark ends, and what follows the last of them. -/
def cutAfter {α : Type} [DecidableEq α] (mark : α) (xs : List α) : List (List α) × List α :=
  xs.foldr (fun x (parts, rest) =>
    if x = mark then ([] :: parts, rest)
    else
      match parts with
      | [] => ([], x :: rest)
      | p :: ps => ((x :: p) :: ps, rest)) ([], [])

/-- A list without the mark at its end. -/
def dropMark {α : Type} [DecidableEq α] (mark : α) (xs : List α) : List α :=
  match xs.reverse with
  | x :: rest => if x = mark then rest.reverse else xs
  | [] => xs

/-- The lines of bytes, without what ends them. -/
def cutLines (bytes : List UInt8) : List (List UInt8) :=
  let (lines, rest) := cutAfter 10 bytes
  lines.map (dropMark 13) ++ if rest.isEmpty then [] else [rest]

/-- The lines of bytes in UTF-8. A line with a fault ends them; the fault is
placed within its line. -/
def byteLines (bytes : ByteArray) : List String × Option Utf8Fault :=
  (cutLines bytes.toList).foldr (fun line (lines, fault) =>
    match decodeUtf8 line with
    | .ok s => (s :: lines, fault)
    | .error f => ([], some f)) ([], none)

/-- Lines with a line feed after each. -/
def frameLines (lines : List ByteArray) : ByteArray :=
  lines.foldl (fun out line => (out ++ line).push 10) .empty

end AlertRelay
