import SandboxPool.Log.Event

/-!
# Which events are shown

A filter is a list of directives, each a level for the events whose path begins with a target;
the directive with the longest matching target decides. `Filter.ofText` reads directives from a
text such as `info,store=trace` and leaves out those it cannot read; where it can read none, the
configured level applies to everything.
-/

namespace SandboxPool.Log

/-- Shows events up to a level, or none, whose path begins with `target`. -/
structure Directive where
  target : String
  level : Option Level
  deriving Repr, DecidableEq

/-- The directives of a filter. -/
abbrev Filter := List Directive

/-- The limit a text stands for, in any case: a level, its number, or `off`. -/
def limitOfText? (s : String) : Option (Option Level) :=
  let s := String.ofList (s.toList.map Char.toLower)
  if s = "off" || s = "0" then some none
  else (Level.all.find? fun l => l.name = s || toString l.verbosity = s).map some

/-- Characters of a target. -/
def isTargetChar (c : Char) : Bool :=
  c.isAlphanum || c = '_' || c = ':' || c = '-' || 0x80 ≤ c.toNat

/-- The directive a text stands for. A target alone, or with nothing after its sign, shows
everything. -/
def Directive.ofText? (s : String) : Option Directive :=
  match limitOfText? s with
  | some limit => some ⟨"", limit⟩
  | none =>
    let cs := s.toList
    let target := cs.takeWhile isTargetChar
    let rest := cs.dropWhile isTargetChar
    if target.isEmpty then none
    else match rest with
      | [] | ['='] => some ⟨String.ofList target, some .trace⟩
      | '=' :: level => (limitOfText? (String.ofList level)).map fun l => ⟨String.ofList target, l⟩
      | _ => none

namespace Filter

/-- The filter that shows events up to a level. -/
def ofLevel (level : Level) : Filter := [⟨"", some level⟩]

/-- The filter of a text, or that of the level if the text holds no directive. -/
def ofText (level : Level) (text : String) : Filter :=
  let directives := (text.splitOn ",").filterMap Directive.ofText?
  if directives.isEmpty then ofLevel level else directives

/-- The directive that decides about a path: the longest target that the path begins with, the
last one given of those. -/
def decisive (f : Filter) (path : String) : Option Directive :=
  f.foldl (fun best d =>
    if d.target.toList.isPrefixOf path.toList then
      match best with
      | some b => if b.target.length ≤ d.target.length then some d else best
      | none => some d
    else best) none

/-- True if the event is shown. -/
def shows (f : Filter) (e : Event) : Bool :=
  match (f.decisive e.origin.path).bind Directive.level with
  | some level => e.level.verbosity ≤ level.verbosity
  | none => false

/-- The most detailed level that some directive shows. -/
def mostVerbose (f : Filter) : Option Level :=
  (f.filterMap Directive.level).foldl (fun best l =>
    match best with
    | some b => if b.verbosity < l.verbosity then some l else best
    | none => some l) none

end Filter
end SandboxPool.Log
