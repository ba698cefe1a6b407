/-!
# Paths

A path is read as the list of names between its slashes.  Resolution works on
these names alone: it never consults a tree, so a resolved path may lead
nowhere.  `Path.render` writes a list of names as an absolute path, and the
canonical paths are exactly what it writes for proper names.
-/

namespace CommandShell

namespace Path

/-- The names along a path, first to last.  Nothing stands between two
neighbouring slashes, so they give no name. -/
def components (path : String) : List String :=
  ((path.toList.splitOn '/').filter (· ≠ [])).map String.ofList

/-- The absolute path that leads from the root along `names`. -/
def render (names : List String) : String :=
  if names = [] then "/" else String.ofList (names.flatMap fun name => '/' :: name.toList)

/-- Whether an entry of a directory can bear this name. -/
def IsName (name : String) : Prop :=
  name ≠ "" ∧ '/' ∉ name.toList

/-- Whether the name stands for an entry wherever it occurs in a path, unlike
the two names that mean a step in place and a step up. -/
def IsProperName (name : String) : Prop :=
  IsName name ∧ name ≠ "." ∧ name ≠ ".."

/-- Whether the path is the written form of a list of proper names. -/
def IsCanonical (path : String) : Prop :=
  ∃ names, (∀ name ∈ names, IsProperName name) ∧ path = render names

instance (name : String) : Decidable (IsName name) :=
  inferInstanceAs (Decidable (_ ∧ _))

instance (name : String) : Decidable (IsProperName name) :=
  inferInstanceAs (Decidable (_ ∧ _))

/-- Whether resolution of the expression begins at the root rather than in the
current directory. -/
def startsAtRoot (expression : String) : Bool :=
  match expression.toList with
  | [] => true
  | first :: _ => first = '/'

/-- The effect of one name of an expression on the names passed so far, the
last one first.  A step up from the root stays at the root. -/
def follow (passed : List String) (name : String) : List String :=
  if name = "." then passed
  else if name = ".." then passed.tail
  else name :: passed

/-- The names passed before the first one of an expression, the last one first. -/
def origin (current expression : String) : List String :=
  if startsAtRoot expression then [] else (components current).reverse

/-- The path that `expression` means in the directory `current`.  An expression
that repeats the current directory is kept as it stands. -/
def resolve (current expression : String) : String :=
  if expression = current then expression
  else render ((components expression).foldl follow (origin current expression)).reverse

/-- The directory part and the last name of a path, cut at its last slash.  A
path with no slash lies in the root, and the root has the empty last name. -/
def splitParent (path : String) : String × String :=
  let backward := path.toList.reverse
  let leaf := String.ofList (backward.takeWhile (· ≠ '/')).reverse
  match backward.dropWhile (· ≠ '/') with
  | [] | [_] => ("/", leaf)
  | _ :: above => (String.ofList above.reverse, leaf)

/-- The last name of a path, or a slash where there is none. -/
def basename (path : String) : String :=
  let leaf := (splitParent path).2
  if leaf = "" then "/" else leaf

end Path

end CommandShell
