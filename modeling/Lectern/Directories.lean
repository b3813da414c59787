/-!
# Where files are kept

Configuration, data and the control socket have their places below the directories that the
environment names. A directory for configuration, data or caches counts only when it is
absolute; otherwise its usual place in the home directory is taken.
-/

namespace Lectern
namespace Directories

/-- Puts a relative path below a base, with one slash between the two. -/
def join (base path : String) : String :=
  if base.isEmpty || base.endsWith "/" then base ++ path else base ++ "/" ++ path

theorem join_empty (path : String) : join "" path = path := by simp [join]

abbrev Environment := String → Option String

def isAbsolute (path : String) : Bool := path.startsWith "/"

/-- The directory that a variable names, or its place in the home directory. -/
def userDirectory (env : Environment) (name inHome : String) : String :=
  match (env name).filter isAbsolute with
  | some path => path
  | none => join ((env "HOME").getD "") inHome

def application : String := "liveprojector"

def configFile (env : Environment) : String :=
  join (join (userDirectory env "XDG_CONFIG_HOME" ".config") application) "config.toml"

def data (env : Environment) : String :=
  join (userDirectory env "XDG_DATA_HOME" ".local/share") application

/-- The directory of running programs counts whatever it is, even when it is empty. -/
def socket (env : Environment) : String :=
  let base := (env "XDG_RUNTIME_DIR").getD (userDirectory env "XDG_CACHE_HOME" ".cache")
  join (join base application) "control.sock"

end Directories
end Lectern
