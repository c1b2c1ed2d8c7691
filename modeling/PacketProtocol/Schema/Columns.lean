import PacketProtocol.Error
/-!
# Rows and columns

Turning rows of equal width into columns, and back. No rows give no columns, and neither do rows
without entries.
-/

namespace PacketProtocol.Columns

/-- The columns of a rectangular table. -/
def transpose (rows : List (List Value)) : Result (List (List Value)) :=
  match rows with
  | [] => .ok []
  | first :: _ =>
    if rows.any fun row => row.length != first.length then
      .error (.invalidSchema .notRectangular)
    else .ok ((List.range first.length).map fun column => rows.filterMap (·[column]?))

/-- Columns of rows. -/
def flatten (rows : List (List Value)) : Result (List (List Value)) := transpose rows

/-- Rows of columns. -/
def unflatten (columns : List (List Value)) : Result (List (List Value)) := transpose columns

end PacketProtocol.Columns
