import DocGraph.CommandLine.Summary
import DocGraph.Json
import DocGraph.Walk

/-! What the commands print, as text and as JSON. -/
namespace DocGraph.CommandLine

/-- Whether text is coloured for a terminal. -/
structure Paint where
  enabled : Bool
  deriving DecidableEq, Repr

namespace Paint

/-- A text between the codes that turn an attribute on and off. -/
def style (paint : Paint) (on off : Nat) (text : String) : String :=
  if paint.enabled then s!"\x1b[{on}m{text}\x1b[{off}m" else text

def bold (paint : Paint) : String → String := paint.style 1 0
def green (paint : Paint) : String → String := paint.style 32 39
def yellow (paint : Paint) : String → String := paint.style 33 39

end Paint

def column (text : String) : String := text ++ "".pushn ' ' (28 - text.length)

def row (label value : String) : String := column label ++ " " ++ value

/-- A count that should be zero. -/
def countRow (paint : Paint) (label : String) (count : Nat) : String :=
  row label (if count > 0 then paint.yellow (toString count) else toString count)

def GroupSummary.rows (group : GroupSummary) : List String :=
  let api := s!"api: {group.functions} functions, {group.types} types, "
    ++ s!"{group.constants} constant groups"
  let diagram := s!"{group.states} states, {group.timelines} timelines, {group.nodes} nodes, "
    ++ s!"{group.messages} messages"
  let other := s!"{group.applications} applications, {group.samples} samples"
  [row group.name diagram]
    ++ (if group.functions + group.types + group.constants > 0 then [row "" api] else [])
    ++ (if group.applications + group.samples > 0 then [row "" other] else [])

def lines (lines : List String) : String := String.join (lines.map (· ++ "\n"))

def infoText (paint : Paint) (loaded : Loaded) : String :=
  let report := loaded.report
  let head := [
    paint.bold "docgen info", "", paint.bold "Model",
    row "Model file" loaded.source,
    row "Built" loaded.header.built,
    row "Format version" loaded.header.version,
    row "Records" (toString loaded.records),
    row "Blocks" (toString loaded.blocks)]
  let links := [
    "", paint.bold "Links",
    row "Transitions resolved" (paint.green (toString report.transitionsResolved)),
    countRow paint "Transitions absent" report.transitionsAbsent,
    row "Messages resolved" (paint.green (toString report.messagesResolved)),
    countRow paint "Messages absent" report.messagesAbsent,
    row "Function pairs" (toString report.functionPairs),
    countRow paint "Unpaired function ends" report.unpairedFunctionEnds]
  let groups := (summaries loaded.model).flatMap GroupSummary.rows
  lines (head ++ links ++ ["", paint.bold "Groups"] ++ groups)

def GroupSummary.json (group : GroupSummary) : Json := .record [
  ("name", .text group.name),
  ("states", .number group.states), ("timelines", .number group.timelines),
  ("nodes", .number group.nodes), ("messages", .number group.messages),
  ("functions", .number group.functions), ("types", .number group.types),
  ("constants", .number group.constants), ("applications", .number group.applications),
  ("samples", .number group.samples)]

def infoJson (loaded : Loaded) : Json :=
  let report := loaded.report
  .record [
    ("model", .text loaded.source),
    ("built", .text loaded.header.built),
    ("version", .text loaded.header.version),
    ("records", .number loaded.records),
    ("blocks", .number loaded.blocks),
    ("links", .record [
      ("transitions_resolved", .number report.transitionsResolved),
      ("transitions_absent", .number report.transitionsAbsent),
      ("messages_resolved", .number report.messagesResolved),
      ("messages_absent", .number report.messagesAbsent),
      ("function_pairs", .number report.functionPairs),
      ("unpaired_function_ends", .number report.unpairedFunctionEnds)]),
    ("groups", .array ((summaries loaded.model).map GroupSummary.json))]

def emissionJson (model : Model) (emission : Emission) : Json := .record [
  ("from", .text (model.timeline emission.origin).name.text),
  ("to", .text (model.timeline emission.destination).name.text),
  ("message", .text (model.message emission.message).name.text),
  ("sender", .number (model.node emission.sender).id.toNat),
  ("receiver", .number (model.node emission.receiver).id.toNat)]

end DocGraph.CommandLine
