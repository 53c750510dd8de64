import ClrOci.Foundation.Numeral
import ClrOci.Host

/-! Helpers shared by the commands: text, string vectors, paths, files. -/

set_option autoImplicit false

namespace ClrOci

open Foundation

def lineMax : Nat := 2048

/-- `INT_MAX`. -/
def intMax : Nat := 2147483647

-- `%s` of a null pointer.
def textOrNull (text : Option String) : String := text.getD "(null)"

/-- `node_to_strv`: the texts of the children, of which readers see those before a separator. -/
def nodeToStrv (root : GNode) : List String :=
  ((root.children.map GNode.data).takeWhile Option.isSome).filterMap id

/-- `clr_oci_resolve_path`. -/
def resolvePath (host : Host) (path : Option String) : Option String := do
  let path ← path
  if path = "" then none else host.realpath path

/-- `g_shell_quote`. -/
def shellQuote (text : String) : String :=
  String.ofList ('\'' :: text.toList.flatMap fun c => if c = '\'' then "'\\''".toList else [c]) ++ "'"

def utf8Skip (lead : Char) : Nat :=
  if lead.toNat < 0xc0 then 1
  else if lead.toNat < 0xe0 then 2
  else if lead.toNat < 0xf0 then 3
  else if lead.toNat < 0xf8 then 4
  else if lead.toNat < 0xfc then 5
  else if lead.toNat < 0xfe then 6
  else 1

def utf8StrlenFrom (limit : Nat) : Nat → Nat → List Char → Nat
  | 0, _, _ => 0
  | _, _, [] => 0
  | fuel + 1, seen, c :: rest =>
    let next := seen + utf8Skip c
    if next < limit then 1 + utf8StrlenFrom limit fuel next (rest.drop (utf8Skip c - 1))
    else if next ≤ limit then 1
    else 0

/-- `g_utf8_strlen` with a bound on the bytes looked at. -/
def utf8Strlen (text : String) (limit : Nat) : Nat :=
  utf8StrlenFrom limit text.length 0 text.toList

/-- `clr_oci_replace_string`: the first occurrence; nothing when the value is missing. -/
def replaceString (text pattern : String) (value : Option String) : String :=
  match value with
  | none => text
  | some value =>
    if pattern = "" then text
    else
      match findFirst pattern.toList text.toList with
      | none => text
      | some (before, found) =>
        String.ofList (before ++ value.toList ++ found.drop (utf8Strlen pattern lineMax))

/-- `clr_oci_file_to_strv`. -/
def fileToStrv (host : Host) (file : Option String) : Option (List String) := do
  let file ← file
  guard (isAbsolute file)
  let contents ← host.readText file
  let lines := strsplit contents '\n' none
  guard (lines ≠ [])
  -- Splitting leaves an empty element behind a final newline.
  return if lines.getLast? = some "" then lines.dropLast else lines

variable (env : Env)

/-- `clr_oci_create_pidfile`. -/
def createPidfile (pidfile : String) (pid : GPid) (sys : Sys) : Bool × Sys :=
  if !isAbsolute pidfile || pid ≤ 0 then (false, sys)
  else setContents env pidfile (.text (toString pid.toInt)) sys

def rmCommand (path : String) : String := "/bin/rm -rf \"" ++ path ++ "\" >/dev/null 2>&1"

/-- `clr_oci_rm_rf`. -/
def rmRf (path : String) (sys : Sys) : Bool × Sys :=
  if path = "" then (false, sys)
  else
    let result := (env.host sys.clock).system (rmCommand path)
    (result.ok, if result.removed then sys.tick.removeTree path else sys.tick)

theorem rmCommand_injective {path other : String} (same : rmCommand path = rmCommand other) :
    path = other := by
  have letters := congrArg String.toList same
  simp only [rmCommand, String.toList_append, List.append_cancel_right_eq,
    List.append_cancel_left_eq] at letters
  exact String.toList_inj.mp letters

/-- `clr_oci_get_bundlepath_file`. -/
def getBundlepathFile (bundlePath : Option String) (file : String) : Option String := do
  let bundlePath ← bundlePath
  if bundlePath = "" || file = "" then none else some (buildPath [bundlePath, file])

/-- `clr_oci_config_file_path`. -/
def configFilePath (bundlePath : Option String) : Option String :=
  getBundlepathFile bundlePath configFileName

theorem rmRf_of_set {path : String} (set : path ≠ "") (sys : Sys) :
    rmRf env path sys =
      let result := (env.host sys.clock).system (rmCommand path)
      (result.ok, if result.removed then sys.tick.removeTree path else sys.tick) := by
  rw [rmRf, if_neg set]

end ClrOci
