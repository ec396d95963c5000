/-!
# Kinds of log entries
-/

namespace SqlTree

/-- The kind of an entry in the log of a query. -/
inductive EntryKind where
  | select | filter | whereExists | group | having | order | join
  deriving DecidableEq, Repr

/-- The word for the kind in outlines and messages. -/
def EntryKind.name : EntryKind → String
  | .select => "select"
  | .filter => "where"
  | .whereExists => "where_exists"
  | .group => "group"
  | .having => "having"
  | .order => "order"
  | .join => "join"

/-- All kinds, in the order in which they are listed. -/
def EntryKind.all : List EntryKind :=
  [.select, .filter, .whereExists, .group, .having, .order, .join]

end SqlTree
