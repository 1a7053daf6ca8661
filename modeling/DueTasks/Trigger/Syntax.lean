import DueTasks.Calendar.ClockTime
import DueTasks.Calendar.Period
import DueTasks.Text.Span

/-! Triggers: the expressions at the start of task names that say when a task is due.
A trigger combines dates and calls with `&` (due once both sides are), `+` (due once either side is)
and parentheses. Nodes know which stretch of the name they were read from.
-/

namespace DueTasks

/-- The annotation `P`: what a task does once it is done. A forced repeat is written `P!`. -/
structure Repeat where
  forced : Bool
  period : Period
deriving DecidableEq

/-- The annotations behind a date or a call. -/
structure Suffix where
  /-- The time of day, behind `T`. -/
  time : Option ClockTime
  /-- The offset behind `E`, which is added to the date. -/
  effective : Option Period
  /-- The priority, behind `#`. -/
  priority : Option UInt32
  /-- The repeat, behind `P`. -/
  repetition : Option Repeat
  /-- The stretch of all annotations together, possibly empty. -/
  span : Span
deriving DecidableEq

mutual

inductive Node where
  /-- A date, whose own text is `token`. -/
  | date (value : Date) (token : Span) (suffix : Suffix)
  /-- A call such as `ref(3)`, whose text from the name to the parenthesis is `token`. -/
  | call (name : String) (args : List Argument) (token : Span) (suffix : Suffix)
  /-- Two triggers joined by `&`. -/
  | both (left right : Node)
  /-- Two triggers joined by `+`. -/
  | either (left right : Node)
  /-- A trigger in parentheses. -/
  | group (inner : Node) (span : Span)

/-- An argument of a call. -/
inductive Argument where
  /-- A text in quotes, with its escapes undone. -/
  | quoted (value : String) (span : Span)
  /-- A word without quotes. -/
  | bare (value : String) (span : Span)
  /-- A trigger. -/
  | trigger (node : Node)

end

namespace Node

/-- The stretch that a node covers. -/
def span : Node → Span
  | .date _ token suffix => ⟨token.start, suffix.span.stop⟩
  | .call _ _ token suffix => ⟨token.start, suffix.span.stop⟩
  | .both left right => ⟨left.span.start, right.span.stop⟩
  | .either left right => ⟨left.span.start, right.span.stop⟩
  | .group _ span => span

/-- The annotations of a date or a call. -/
def suffix? : Node → Option Suffix
  | .date _ _ suffix => some suffix
  | .call _ _ _ suffix => some suffix
  | _ => none

/-- The repeat annotation of a date or a call. -/
def repetition? (node : Node) : Option Repeat :=
  node.suffix? >>= Suffix.repetition

end Node

namespace Argument

/-- The stretch that an argument covers. -/
def span : Argument → Span
  | .quoted _ span => span
  | .bare _ span => span
  | .trigger node => node.span

def word? : Argument → Option String
  | .quoted value _ => some value
  | .bare value _ => some value
  | .trigger _ => none

end Argument

mutual

/-- A node and all nodes below it, those in arguments included, in the order of the text. -/
def Node.nodes : Node → List Node
  | .date value token suffix => [.date value token suffix]
  | .call name args token suffix => .call name args token suffix :: Argument.nodesOfList args
  | .both left right => .both left right :: (left.nodes ++ right.nodes)
  | .either left right => .either left right :: (left.nodes ++ right.nodes)
  | .group inner span => .group inner span :: inner.nodes

def Argument.nodes : Argument → List Node
  | .trigger node => node.nodes
  | .quoted .. => []
  | .bare .. => []

def Argument.nodesOfList : List Argument → List Node
  | [] => []
  | arg :: args => arg.nodes ++ Argument.nodesOfList args

end

/-- A task name that starts with a trigger; what follows it is kept as the ending. -/
structure Trigger where
  source : String
  root : Node
  ending : Span

namespace Trigger

/-- The text of a stretch of the name. -/
def text (t : Trigger) (span : Span) : String :=
  String.ofList (Text.slice t.source.toList span)

/-- The text behind the trigger. -/
def endingText (t : Trigger) : String :=
  t.text t.ending

/-- The text of an argument taken literally: the word, or the text of a trigger as it stands. -/
def literal (t : Trigger) (arg : Argument) : String :=
  arg.word?.getD (t.text arg.span)

/-- Whether any node, those in arguments included, carries a repeat annotation. -/
def hasRepeat (t : Trigger) : Bool :=
  t.root.nodes.any fun node => node.repetition?.isSome

/-- The id that a node declares: the argument of a call of `id` with one argument. -/
def declaredId? (t : Trigger) : Node → Option String
  | .call "id" [arg] _ _ => some (t.literal arg)
  | _ => none

/-- The ids that are declared anywhere in the name, in the order of the text. -/
def declaredIds (t : Trigger) : List String :=
  t.root.nodes.filterMap t.declaredId?

end Trigger

end DueTasks
