import Fragments.Markup.Render

namespace Fragments

structure Table where
  title : Option String
  header : List String
  rows : List (List String)
  deriving Inhabited

namespace Table

structure Rule where
  left : String
  fill : Char
  cross : String
  right : String

def topRule : Rule := ⟨"┏", '━', "┳", "┓"⟩

def headerRule : Rule := ⟨"┡", '━', "╇", "┩"⟩

def bottomRule : Rule := ⟨"└", '─', "┴", "┘"⟩

def blanks (count : Nat) : String := String.ofList (List.replicate count ' ')

def linesOf (cell : String) : List String := Text.split '\n' cell

def cellWidth (cell : String) : Nat :=
  ((linesOf cell).map Text.width).foldl max 0

def columnWidths (table : Table) : List Nat :=
  table.rows.foldl
    (fun widths row => List.zipWith max widths (row.map cellWidth))
    (table.header.map cellWidth)

def pad (width : Nat) (line : String) : String :=
  " " ++ line ++ blanks (width - Text.width line) ++ " "

def drawRule (rule : Rule) (widths : List Nat) : String :=
  rule.left ++ rule.cross.intercalate (widths.map fun width =>
    String.ofList (List.replicate (width + 2) rule.fill)) ++ rule.right ++ "\n"

def drawRow (bar : String) (widths : List Nat) (cells : List String) : String :=
  let columns := cells.map linesOf
  let height := (columns.map List.length).foldl max 1
  String.join ((List.range height).map fun i =>
    bar ++ bar.intercalate
      (List.zipWith (fun width lines => pad width ((lines[i]?).getD "")) widths
        columns) ++ bar ++ "\n")

/-- The title in the middle; of an odd number of blanks, one more stands on the
right. -/
def drawTitle (widths : List Nat) (title : String) : String :=
  let whole := widths.foldl (fun total width => total + width + 3) 1
  let free := whole - Text.width title
  blanks (free / 2) ++ title ++ blanks (free - free / 2) ++ "\n"

def draw (table : Table) : String :=
  let widths := table.columnWidths
  ((table.title.map (drawTitle widths)).getD "") ++ drawRule topRule widths ++
    drawRow "┃" widths table.header ++ drawRule headerRule widths ++
    String.join (table.rows.map (drawRow "│" widths)) ++
    drawRule bottomRule widths

def rendered (table : Table) : Except Fault Table := do
  .ok { table with rows := ← table.rows.mapM fun row => row.mapM Markup.render }

end Table

end Fragments
