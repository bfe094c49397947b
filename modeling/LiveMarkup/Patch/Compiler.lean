import LiveMarkup.Patch.Cache
import LiveMarkup.Patch.Compile

/-!
# The patch compiler

A patch compiler parses and compiles sources and keeps their patches.  It remembers which sources
it handed to its parser.

Main definitions:

- `PatchCompiler`: a parser, settings, a supply of keys and a cache.
- `PatchCompiler.compileStack`: the instructions of a source, without the cache.
- `PatchCompiler.createPatch`: the patch of a source, compiled if it is not kept.
-/

namespace LiveMarkup

/-- A parser with the patches that were compiled from what it parsed. -/
structure PatchCompiler where
  parser : MarkupParser
  config : PatchConfig := {}
  /-- Where generated keys come from. -/
  supply : Nat → String := Key.generated
  /-- The number of the next generated key. -/
  drawn : Nat := 0
  /-- The serial number of the next patch. -/
  serial : Nat := 0
  cache : PatchCache
  /-- The sources handed to the parser, in order. -/
  parsed : List String := []

namespace PatchCompiler

/-- A compiler that has compiled nothing yet. -/
def new (parser : MarkupParser) (config : PatchConfig) : PatchCompiler :=
  { parser, config, cache := { capacity := config.cacheCapacity } }

/-- How often a source was handed to the parser. -/
def callsFor (c : PatchCompiler) (source : String) : Nat :=
  c.parsed.count source

/-- Forget which sources were handed to the parser. -/
def resetCalls (c : PatchCompiler) : PatchCompiler :=
  { c with parsed := [] }

/-- Forget the kept patches. -/
def clearCache (c : PatchCompiler) : PatchCompiler :=
  { c with cache := c.cache.clear }

/-- Whether the patch of a source is kept. -/
def contains (c : PatchCompiler) (source : String) : Bool :=
  c.cache.contains source

/-- Whether the patch of a source is not kept, so that the next request compiles it. -/
def needsPatch (c : PatchCompiler) (source : String) : Bool :=
  !c.contains source

/-- The kept patch of a source. -/
def getPatch? (c : PatchCompiler) (source : String) : Option Patch :=
  c.cache.peek? source

/-- The instructions of a source, parsed and compiled anew. -/
def compileStack (c : PatchCompiler) (source : String) :
    Except PatchError (List Instruction) × PatchCompiler :=
  let c := { c with parsed := c.parsed ++ [source] }
  match c.parser source with
  | .error e => (.error (.parse e), c)
  | .ok f =>
    match f.draft c.config with
    | .error e => (.error e, c)
    | .ok drafts =>
      (.ok (Draft.assign c.supply c.drawn drafts),
        { c with drawn := c.drawn + drafts.countP Draft.lacksKey })

/-- The patch of a source: the kept one, or else one that is compiled and then kept. -/
def createPatch (c : PatchCompiler) (source : String) :
    Except PatchError Patch × PatchCompiler :=
  match c.cache.lookup source with
  | (some patch, cache) => (.ok patch, { c with cache })
  | (none, cache) =>
    match ({ c with cache } : PatchCompiler).compileStack source with
    | (.error e, c) => (.error e, c)
    | (.ok instructions, c) =>
      let patch : Patch := { serial := c.serial, instructions }
      (.ok patch, { c with serial := c.serial + 1, cache := c.cache.insert source patch })

end PatchCompiler
end LiveMarkup
