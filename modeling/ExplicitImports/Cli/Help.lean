import ExplicitImports.Cli.Message
import ExplicitImports.Cli.Option

/-!
# Help

The help in two layouts: one line for each option, or a paragraph for each.
Headings stand out, and so does all that can be typed as it stands.
-/

namespace ExplicitImports.Cli.Help

def name : String := "esmfix"

def version : Message := .text (name ++ " 0.1.0\n")

/-- What the program does, and how it is called. -/
def opening : Message :=
  .text "Append explicit .js extensions to relative imports in TypeScript files\n\n"
    ++ .marked .heading "Usage:" ++ .text " " ++ .marked .literal name
    ++ .text " [OPTIONS] [ROOT]\n\n" ++ .marked .heading "Arguments:" ++ .text "\n  [ROOT]"

/-- So many spaces. -/
def spaces (n : Nat) : String :=
  String.ofList (List.replicate n ' ')

/-- The short and the long form of an option. -/
def forms (opt : Opt) : Message :=
  (match opt.short? with
    | some c => .marked .literal ("-" ++ String.ofList [c]) ++ .text ", "
    | none => .text "    ")
    ++ .marked .literal ("--" ++ opt.long) ++ .text opt.tail

/-- The default of an option in brackets. -/
def bracketed (value : String) : String :=
  "[default: " ++ value ++ "]"

/-- The column that descriptions start in: two spaces after the longest forms. -/
def column : Nat :=
  (Opt.all.map fun opt => (forms opt).width).foldl max 0 + 2

def shortLine (opt : Opt) : Message :=
  .text "  " ++ forms opt ++ .text (spaces (column - (forms opt).width) ++ opt.description
    ++ (match opt.default? with
      | some value => " " ++ bracketed value
      | none => "")
    ++ (match opt with
      | .setting .color =>
          " [possible values: " ++ ", ".intercalate (ColorUse.all.map ColorUse.name) ++ "]"
      | .help => " (see more with '--help')"
      | _ => "")
    ++ "\n")

/-- The help with a line for each option. -/
def short : Message :=
  opening ++ .text ("  Directory to scan " ++ bracketed "api" ++ "\n\n")
    ++ .marked .heading "Options:" ++ .text "\n" ++ Opt.all.flatMap shortLine

/-- A line of a paragraph. -/
def indented (line : Message) : Message :=
  .text (spaces 10) ++ line ++ .text "\n"

/-- The color modes with what they mean, their descriptions below each other. -/
def colorUses : Message :=
  let width := (ColorUse.all.map fun mode => mode.name.length).foldl max 0
  .text "\n" ++ indented (.text "Possible values:") ++ ColorUse.all.flatMap fun mode =>
    indented (.text "- " ++ .marked .literal mode.name
      ++ .text (":" ++ spaces (width - mode.name.length + 1) ++ mode.description))

def longParagraph (opt : Opt) : Message :=
  .text "  " ++ forms opt ++ .text "\n"
    ++ indented (.text (opt.description
      ++ if opt = .help then " (see a summary with '-h')" else ""))
    ++ (if opt = .setting .color then colorUses else [])
    ++ (match opt.default? with
      | some value => indented (.text "") ++ indented (.text (bracketed value))
      | none => [])

/-- The help with a paragraph for each option. -/
def long : Message :=
  opening ++ .text "\n" ++ indented (.text "Directory to scan") ++ indented (.text "")
    ++ indented (.text (bracketed "api")) ++ .text "\n" ++ .marked .heading "Options:"
    ++ .text "\n" ++ (.text "\n" : Message).intercalate (Opt.all.map longParagraph)

end ExplicitImports.Cli.Help
