namespace AgentHost.Text.Path

def isAbsolute (path : String) : Bool := path.toList.head? == some '/'

def segments : List Char → List (List Char)
  | [] => [[]]
  | c :: rest =>
    if c = '/' then [] :: segments rest
    else match segments rest with
      | [] => [[c]]
      | head :: more => (c :: head) :: more

def isIdle (segment : List Char) : Bool := segment == [] || segment == ['.']

/-- Whether the path is absolute, and its components. Empty components and dots are dropped, except
    a leading dot of a relative path. -/
def parts (path : String) : Bool × List (List Char) :=
  match segments path.toList with
  | [] => (false, [])
  | head :: rest =>
    (isAbsolute path, (if head.isEmpty then [] else [head]) ++ rest.filter fun s => !isIdle s)

def same (path other : String) : Bool := parts path == parts other

def join (base name : String) : String :=
  if base.isEmpty || base.toList.getLast? == some '/' then base ++ name else base ++ "/" ++ name

end AgentHost.Text.Path
