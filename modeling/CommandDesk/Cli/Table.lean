import CommandDesk.Text.Blank
import CommandDesk.Text.Cut

/-!
# Printed tables

Columns as wide as their widest cell, two spaces apart, under a row of heads and
a row of hyphens. Widths count characters, and no row ends with blanks.
-/

namespace CommandDesk

namespace Cli

/-- The widths of the columns under these heads. -/
def columnWidths (heads : List String) (rows : List (List String)) : List Nat :=
  rows.foldl (fun widths row =>
      (widths.zip (row.map String.length)).map (fun (a, b) => max a b)
        ++ widths.drop row.length)
    (heads.map String.length)

/-- A row with its cells filled up to the widths of their columns. -/
def tableRow (widths : List Nat) (cells : List String) : String :=
  let padded := (cells.zip widths).map fun (c, n) => Text.padRight n c.toList
  String.ofList (Text.trimBack ([' ', ' '].intercalate padded))

/-- The lines of a table. -/
def tableLines (heads : List String) (rows : List (List String)) : List String :=
  let widths := columnWidths heads rows
  let hyphens := "  ".intercalate (widths.map fun n => String.ofList (List.replicate n '-'))
  tableRow widths heads :: hyphens :: rows.map (tableRow widths)

end Cli

end CommandDesk
