import FieldPlan.Message

/-! Ends of which no message tells. -/
namespace FieldPlan

/-- What no rule foresees: a part is asked of something that is not there, or what
contains itself is followed for ever. -/
inductive Crash where
  | absent
  | endless
  deriving DecidableEq, Repr

/-- Why a program stops short. -/
inductive Breakdown where
  /-- No file can have the name. -/
  | name
  /-- The text of a file cannot be encoded, or not decoded. -/
  | content
  /-- The text cannot be printed. -/
  | output
  /-- The system does not do what it is asked for. -/
  | refused
  /-- Keys that are to be listed have no common order. -/
  | unordered
  /-- The reader of documents stops with these words. -/
  | reader (words : String)
  | crash (way : Crash)
  deriving DecidableEq, Repr

/-- What keeps a program from its end: something that it tells of, or a breakdown. -/
inductive Trouble where
  | told (m : Message)
  | breakdown (b : Breakdown)
  deriving DecidableEq, Repr

end FieldPlan
