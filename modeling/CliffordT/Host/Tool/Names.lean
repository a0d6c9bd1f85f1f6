import CliffordT.Host.Tool.Copying

/-!
# Tools for files and their names

`basename` and `dirname` take names apart; `ls` shows the names in directories; `touch`, `mkdir`,
`rm`, `cp` and `mv` change which files there are. -/

namespace CliffordT

namespace Tool

open Shell (Text joinLines)

/-! ### Parts of names -/

/-- A name without the slashes at its end. -/
def trimSlashes (t : Text) : Text := (t.reverse.dropWhile (· == '/')).reverse

/-- The last part of a name; only slashes are the root. -/
def lastPart (t : Text) : Text :=
  let body := trimSlashes t
  if body.isEmpty then t.take 1 else (body.reverse.takeWhile (· != '/')).reverse

/-- A name without its last part. -/
def firstParts (t : Text) : Text :=
  let body := trimSlashes t
  if body.isEmpty then (if t.isEmpty then ['.'] else ['/'])
  else if !body.contains '/' then ['.']
  else
    let front := trimSlashes (body.reverse.dropWhile (· != '/')).reverse
    if front.isEmpty then ['/'] else front

/-- A name without a suffix, unless it is nothing but that suffix. -/
def dropSuffix (suffix t : Text) : Text :=
  if suffix.length < t.length ∧ suffix.isSuffixOf t then t.take (t.length - suffix.length) else t

/-- `basename` : the last part of a name, without a suffix. -/
def basename : Action := fun c =>
  match Options.ofArgs ['a', 'z'] ['s'] [("multiple", 'a'), ("suffix", 's')] false c.args with
  | .error t => c.refuse 1 t
  | .ok o =>
    let shown := fun (suffix : Text) (names : List Text) =>
      ({ output := joinLines (names.map fun t => dropSuffix suffix (lastPart t)) } : Answer)
    if o.operands.isEmpty then c.refuse 1 "missing operand".toList
    else if o.has 'a' || o.has 's' then shown ((o.value? 's').getD []) o.operands
    else
      match o.operands with
      | [name, suffix] => shown suffix [name]
      | _ :: _ :: extra :: _ => c.refuse 1 ("extra operand ".toList ++ Call.quoted extra)
      | names => shown [] names

/-- `dirname` : names without their last parts. -/
def dirname : Action :=
  withOptions "z" "" [] 1 fun c o =>
    if o.operands.isEmpty then c.refuse 1 "missing operand".toList
    else { output := joinLines (o.operands.map firstParts) }

/-! ### Directories -/

/-- The names in a directory; those that start with a dot only on demand. -/
def listed (c : Call) (o : Options) (place : Place) : List Text :=
  let names := (c.files.children place).map Shell.ofBytes
  let all := if o.has 'a' then ['.'] :: ['.', '.'] :: names else names
  let shown := if o.has 'a' || o.has 'A' then all else all.filter (·.head? != some '.')
  if o.has 'r' then shown.reverse else shown

/-- `ls` : names, and those in directories. -/
def ls : Action :=
  withOptions "1aAdrR" "" [("all", 'a')] 2 fun c o =>
    let names := if o.operands.isEmpty then [['.']] else o.operands
    let sorted := names.mergeSort fun a b => String.ofList a ≤ String.ofList b
    let found := (if o.has 'r' then sorted.reverse else sorted).map fun t => (t, c.locate t)
    let faults := found.filterMap fun (t, r) =>
      match r with
      | .error e =>
        some (c.complaint ("cannot access ".toList ++ Call.quoted t ++ ": ".toList ++ errorText e))
      | .ok _ => none
    let single := found.filterMap fun (t, r) =>
      match r with
      | .ok (_, .directory) => if o.has 'd' then some t else none
      | .ok _ => some t
      | .error _ => none
    let within := found.filterMap fun (t, r) =>
      match r with
      | .ok (place, .directory) =>
        let heading := if 1 < names.length then t ++ [':', '\n'] else []
        if o.has 'd' then none else some (heading ++ joinLines (listed c o place))
      | _ => none
    let first := if single.isEmpty then [] else [joinLines single]
    { output := Shell.joinWith ['\n'] (first ++ within)
      complaints := faults.flatten
      status := if faults.isEmpty then 0 else 2 }

/-! ### Changing files -/

/-- The path that a text is. -/
def pathOf (t : Text) : Path := ⟨Shell.toBytes t⟩

/-- Change the files for each operand in turn; what goes wrong is said behind a text with the
operand. -/
def changeEach (c : Call) (describe : Text → Text)
    (change : Files → Text → Except SystemError Files) (operands : List Text) : Answer :=
  let (files, faults) := operands.foldl
    (fun (files, faults) t =>
      match change files t with
      | .ok files => (files, faults)
      | .error e => (files, faults ++ [c.complaint (describe t ++ ": ".toList ++ errorText e)]))
    (c.files, ([] : List Text))
  { complaints := faults.flatten
    status := if faults.isEmpty then 0 else 1
    changed := some files }

/-- What is said about an operand in quotes. -/
def cannot (verb : String) (t : Text) : Text :=
  "cannot ".toList ++ verb.toList ++ ' ' :: Call.quoted t

/-- `touch` : make files that do not exist. -/
def touch : Action :=
  withOptions "camt" "" [] 1 fun c o =>
    if o.operands.isEmpty then c.refuse 1 "missing file operand".toList
    else
      changeEach c (cannot "touch")
        (fun files t =>
          match files.locate c.directory (pathOf t) with
          | .ok _ => .ok files
          | .error e =>
            if o.has 'c' || t == ['-'] then .ok files
            else
              match files.vacancy c.directory (pathOf t) with
              | .ok place => .ok (files.put place (.file []))
              | .error _ => .error e)
        o.operands

/-- The places on the way to a place. -/
def leads (place : Place) : List Place := (List.range place.length).map fun n => place.take (n + 1)

/-- `mkdir` : make directories, with those on the way to them if asked to. -/
def mkdir : Action :=
  withOptions "pv" "m" [("parents", 'p')] 1 fun c o =>
    if o.operands.isEmpty then c.refuse 1 "missing operand".toList
    else
      changeEach c (fun t => "cannot create directory ".toList ++ Call.quoted t)
        (fun files t =>
          if o.has 'p' then
            let names := (pathOf t).pieces.filter fun n => !n.isEmpty && n != [Path.dot]
            .ok ((leads (Files.start c.directory (pathOf t) ++ names)).foldl
              (fun files place =>
                if (files.lookup place).isSome then files else files.put place .directory)
              files)
          else
            match files.locate c.directory (pathOf t) with
            | .ok _ => .error (.code 17)
            | .error e =>
              match files.vacancy c.directory (pathOf (trimSlashes t)) with
              | .ok place => .ok (files.put place .directory)
              | .error _ => .error e)
        o.operands

/-- `rm` : remove files, and directories if asked to. -/
def rm : Action :=
  withOptions "frRv" "" [("force", 'f'), ("recursive", 'r')] 1 fun c o =>
    if o.operands.isEmpty then
      if o.has 'f' then {} else c.refuse 1 "missing operand".toList
    else
      changeEach c (cannot "remove")
        (fun files t =>
          match files.locate c.directory (pathOf t) with
          | .ok (place, .directory) =>
            if o.has 'r' || o.has 'R' then .ok (files.remove place) else .error .isDirectory
          | .ok (place, _) => .ok (files.remove place)
          | .error e => if o.has 'f' then .ok files else .error e)
        o.operands

/-- The place that a file gets by its new name, which may be that of a directory. -/
def destination (c : Call) (files : Files) (source target : Text) : Except SystemError Place :=
  match files.locate c.directory (pathOf target) with
  | .ok (place, .directory) => .ok (place ++ [Shell.toBytes (lastPart source)])
  | .ok (place, _) => .ok place
  | .error _ => files.vacancy c.directory (pathOf target)

/-- The files with all that is within a place put into another one as well. -/
def copied (files : Files) (source target : Place) : Files :=
  (files.filter fun (p, _) => source.isPrefixOf p).foldl
    (fun files (p, e) => files.put (target ++ p.drop source.length) e) files

/-- A tool that gives files other names; the old ones are kept or not. -/
def giving (verb : String) (keeps : Bool) : Action :=
  withOptions "fpRarnv" "" [("recursive", 'r')] 1 fun c o =>
    match o.operands.reverse with
    | [] => c.refuse 1 "missing file operand".toList
    | [t] => c.refuse 1 ("missing destination file operand after ".toList ++ Call.quoted t)
    | target :: sources =>
      changeEach c (cannot verb)
        (fun files t =>
          match files.locate c.directory (pathOf t) with
          | .error e => .error e
          | .ok (place, entry) =>
            if keeps && entry == .directory && !(o.has 'r' || o.has 'R' || o.has 'a') then
              .error .isDirectory
            else
              (destination c files t target).map fun new =>
                if new == place then files
                else
                  let both := copied files place new
                  if keeps then both else both.remove place)
        sources.reverse

/-- `cp` : copies of files. -/
def cp : Action := giving "stat" true

/-- `mv` : files with other names. -/
def mv : Action := giving "stat" false

end Tool

end CliffordT
