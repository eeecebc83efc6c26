import FeedAudit.Check.Container
import FeedAudit.Clock.Moment
import FeedAudit.Decimal.Places

/-!
# Reports

The report of a channel has a header, one block for each container, and a footer with the counts.
A block names its container and then only what did not pass: elements are indented by their depth,
and nothing is written about what passed.
-/

namespace FeedAudit

/-! ## Elements -/

/-- The blanks in front of the lines of an element. -/
def indent (depth : Nat) : String := Text.repeated depth "  "

/-- The line that names an element. -/
def headline (depth : Nat) (id name : String) (verdict : Verdict) : String :=
  let label := if depth = 0 then "Element" else "Child element"
  s!"{indent depth}{label} #{id}: <{name}> {verdict.word}"

/-- The lines about a text that did not pass. -/
def valueLines (depth : Nat) : Option ValueResult → List String
  | none => []
  | some v =>
    if v.verdict.isPass then []
    else
      ["", s!"{indent depth}Element value validation",
        s!"{indent depth}{v.verdict.word} - " ++ v.message.getD "",
        s!"{indent depth}Expected value: {v.expected}",
        s!"{indent depth}Actual value: {v.actual}", ruleLine '-']

/-- The lines about an attribute that did not pass. -/
def attributeLines (depth : Nat) (a : AttributeResult) : List String :=
  if a.verdict.isPass then []
  else
    [s!"{indent depth}{a.verdict.word} - Attribute #{a.id}: {a.name}",
      s!"{indent depth}Expected value: {a.expected}",
      s!"{indent depth}Actual value: {a.actual}",
      s!"{indent depth}Test message: " ++ a.message.getD "", ruleLine '-']

/-- The lines about attributes of which some did not pass. -/
def attributesLines (depth : Nat) : Option AttributesResult → List String
  | none => []
  | some a =>
    if a.verdict.isPass then []
    else
      ["", s!"{indent depth}Attribute validation:"] ++ a.each.flatMap (attributeLines depth)

mutual

/-- The lines about an element, none if it passed. -/
def elementLines (depth : Nat) : ElementResult → List String
  | ⟨id, name, verdict, message, value, attributes, children⟩ =>
    if verdict.isPass then []
    else if value.isNone && attributes.isNone && children.isNone then
      [headline depth id name verdict,
        s!"{indent depth}{verdict.word} - " ++ message.getD "", ruleLine '-']
    else
      headline depth id name verdict ::
        (valueLines depth value ++ attributesLines depth attributes ++
          optionalChildrenLines depth children)

/-- The lines about children, if any were checked. -/
def optionalChildrenLines (depth : Nat) : Option (ChildrenResult ElementResult) → List String
  | none => []
  | some c => childrenLines depth c

/-- The lines about children of which some did not pass. -/
def childrenLines (depth : Nat) : ChildrenResult ElementResult → List String
  | ⟨verdict, each⟩ =>
    if verdict.isPass then []
    else ["", s!"{indent depth}Child elements validation:"] ++ elementListLines (depth + 1) each

/-- The lines about elements, one after the other. -/
def elementListLines (depth : Nat) : List ElementResult → List String
  | [] => []
  | r :: rest => elementLines depth r ++ elementListLines depth rest

end

/-! ## Containers -/

/-- The block of a container. -/
def Summary.lines (s : Summary) : List String :=
  [ruleLine '=', s!"Tested element ID: {s.containerId}", s!"Test result: {s.verdict.word}",
    ruleLine '='] ++ elementListLines 0 s.results ++ ["", "", ""]

/-! ## Channels -/

/-- What is known about a channel that was run to its end. -/
structure ChannelReport where
  channel : String
  started : Moment
  finished : Moment
  summaries : List Summary
  /-- The number of element checks for each container. -/
  nodeCount : Nat
  path : String
  deriving Repr, Inhabited

namespace ChannelReport

/-- The verdict on a channel. -/
def verdict (r : ChannelReport) : Verdict := .worst (r.summaries.map (·.verdict))

/-- The number of containers that were checked. -/
def containers (r : ChannelReport) : Nat := r.summaries.length

/-- The number of containers with a given verdict. -/
def count (r : ChannelReport) (v : Verdict) : Nat :=
  (r.summaries.filter fun s => s.verdict == v).length

/-- The time that a channel took, in nanoseconds. -/
def nanos (r : ChannelReport) : Nat := r.started.nanosUntil r.finished

end ChannelReport

/-- A number of nanoseconds in seconds, as the double it is held in: the whole seconds and the
fraction are rounded to doubles before and after they are added. -/
def secondsOfNanos (round : Rat → Rat) (nanos : Nat) : Rat :=
  round (round (nanos / 1000000000 : Nat) + round ((nanos % 1000000000 : Nat) / 1000000000))

/-- The lines with which a report starts. -/
def headerLines (channel : String) (started : Moment) : List String :=
  [s!"Report for channel '{channel}'", s!"Test started at {started.text}", ""]

/-- The line that counts the containers by their verdict. -/
def ChannelReport.countsLine (r : ChannelReport) : String :=
  s!"Containers tested: {r.containers}, passed: {r.count .pass}, " ++
    s!"failed: {r.count .fail}, blocked: {r.count .block}"

/-- The lines with which a report ends. -/
def ChannelReport.footerLines (r : ChannelReport) : List String :=
  [ruleLine '=', s!"Test finished at {r.finished.text}",
    "Duration: " ++ Decimal.fixed 2 (secondsOfNanos Decimal.nearestDouble r.nanos) ++ "s",
    r.countsLine, s!"Element checks per container: {r.nodeCount}",
    s!"Channel result: {r.verdict.word}", ruleLine '=']

end FeedAudit
