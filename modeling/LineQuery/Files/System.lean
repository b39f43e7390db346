import LineQuery.Files.Disk

/-!
# What stands on every system

The folders, devices and programs that are there before anything is written to a disk.
-/

namespace LineQuery.Files

def systemFolders : List String :=
  ["/bin", "/boot", "/dev", "/dev/fd", "/etc", "/home", "/lib", "/media", "/mnt", "/opt", "/proc",
    "/root", "/run", "/sbin", "/srv", "/sys", "/tmp", "/usr", "/usr/bin", "/usr/include",
    "/usr/lib", "/usr/local", "/usr/local/bin", "/usr/local/sbin", "/usr/sbin", "/usr/share",
    "/var", "/var/lib", "/var/log", "/var/tmp"]

def systemDevices : List (String × Device) :=
  [("/dev/null", .null), ("/dev/zero", .zeros), ("/dev/full", .full), ("/dev/random", .zeros),
    ("/dev/urandom", .zeros), ("/dev/tty", .terminal), ("/dev/stdin", .descriptor 0),
    ("/dev/stdout", .descriptor 1), ("/dev/stderr", .descriptor 2), ("/dev/fd/0", .descriptor 0),
    ("/dev/fd/1", .descriptor 1), ("/dev/fd/2", .descriptor 2)]

/-- The files that stand on every system. What is in them is not known. -/
def systemFiles : List String :=
  ["/etc/passwd", "/etc/group", "/etc/hosts", "/etc/hostname"]

/-- The folders in which programs stand. -/
def programFolders : List String := ["/usr/bin", "/bin"]

/-- The disk of a system on which programs of the given names stand. -/
def Disk.system (programs : List String) : Disk :=
  let standing := fun (text : String) (e : Entry) => (Written.names text, e)
  ⟨systemFolders.map (standing · .folder) ++
    systemDevices.map (fun (text, d) => standing text (.device d)) ++
    systemFiles.map (standing · (.file [])) ++
    programFolders.flatMap fun folder =>
      programs.map fun name => standing (Written.within folder name) (.program name)⟩

end LineQuery.Files
