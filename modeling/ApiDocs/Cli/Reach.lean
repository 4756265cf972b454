import ApiDocs.Cli.Args
import ApiDocs.Files.Glob

/-!
# What a run looks at

A run is a function of the whole disk, but it depends on a small part of it only: the directories
on the way to its inputs and to the output directory, and what is below these. `Options.routes`
names this part, so that no more than this has to be fetched before a run.
-/

namespace ApiDocs.Cli

/-- Whether a segment of a pattern has a wildcard. -/
def isWild (segment : String) : Bool := segment.toList.any fun c => c = '*' || c = '?' || c = '['

/-- The places on the way to an input: as far as its segments have no wildcard. -/
def inputRoute (here : List String) (input : String) : List (List String) :=
  Path.routeFrom (if Path.isAbsolute input then [] else here)
    ((Path.segments input).takeWhile (!isWild ·))

/-- The places on the way to each input and to the output directory. What is below the last place
of a route matters as well. -/
def Options.routes (o : Options) (here : List String) : List (List (List String)) :=
  let start := if Path.isAbsolute o.outputDir then [] else here
  o.inputs.map (inputRoute here) ++ [Path.routeFrom start (Path.segments o.outputDir)]

end ApiDocs.Cli
