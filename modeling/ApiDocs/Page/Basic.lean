import ApiDocs.Files.Path
import ApiDocs.Page.ClassView

/-!
# Output pages

The outputs of a run are pages: the whole model, the table of classes and their modules, or one
page for each class. `Output.pages` gives the pages of an output with the notes about them.
-/

namespace ApiDocs

/-- A page: where it goes below the output directory, and its content. -/
structure Page where
  path : String
  content : String
  deriving DecidableEq, Repr

/-- The kinds of output. -/
inductive Output where
  | model
  | classMap
  | classPages
  deriving DecidableEq, Repr

/-- What the outputs depend on besides the model. -/
structure PageOptions where
  /-- The name of the page with the model. -/
  modelFile : String := "parsed.json"
  showPrivate : Bool := false
  deriving DecidableEq, Repr

namespace Output

/-- The output of a given name. -/
def ofName? : String → Option Output
  | "model" | "json" => some model
  | "classmap" => some classMap
  | "pages" => some classPages
  | _ => none

/-- The message about a name that is no output's. -/
def unknownMessage (name : String) : String :=
  s!"unknown output: {name}. Use model, classmap, or pages"

/-- The classes that belong to a module, each with its module. -/
def moduleTable (m : Model) : List (String × String) :=
  m.classes.entries.filterMap fun e => e.2.inModule.map fun mod => (e.1, mod)

/-- The notes about classes without a module. -/
def moduleNotes (m : Model) : List Note :=
  (m.classes.entries.filter (·.2.inModule.isNone)).map fun e => .noModule e.1

/-- The classes that have a page. -/
def shownClasses (m : Model) (showPrivate : Bool) : List ClassDoc :=
  m.classes.values.filter (·.access.shown showPrivate)

/-- The page of a class. -/
def classPage (m : Model) (showPrivate : Bool) (c : ClassDoc) : Page where
  path := Path.join "classes" (c.name ++ ".json")
  content := (ClassView.ofClass m showPrivate c).toJson.document

/-- The notes about the page of a class. -/
def classNotes (m : Model) (showPrivate : Bool) (c : ClassDoc) : List Note :=
  .viewing c.name :: Inherited.notes (c.ancestors m.classes showPrivate)

/-- The pages of an output, and the notes about them. -/
def pages (options : PageOptions) (m : Model) : Output → List Page × List Note
  | model => ([⟨options.modelFile, m.document⟩], [])
  | classMap =>
    let table := Json.obj ((moduleTable m).map fun e => (e.1, .str e.2))
    ([⟨"classmap.json", table.document⟩], moduleNotes m)
  | classPages =>
    let shown := shownClasses m options.showPrivate
    (shown.map (classPage m options.showPrivate),
      shown.flatMap (classNotes m options.showPrivate))

end Output

end ApiDocs
