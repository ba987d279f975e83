import SecretManager.Dbus.Daemon
import SecretManager.Import.Run

/-!
# One machine

The daemon and any number of `sm import` runs share the vault directory and the alias file, and
nothing else. A run asks the daemon for a Reload over the bus; what it is answered is part of its
action, and when a Reload happens is part of the daemon's. The daemon may be stopped at any point
and started again on the files it finds.
-/

namespace SecretManager.Import

structure Host (ι κ : Type) where
  daemon : Daemon ι
  runs : κ → ImportPhase

inductive HostAction (ι κ : Type) where
  | daemon (a : Action ι)
  | run (k : κ) (a : ImportAction)
  | restart

namespace Host

variable {ι κ : Type}

def disk (s : Host ι κ) : Disk := ⟨s.daemon.dir, s.daemon.aliasFile⟩

def setDisk (s : Host ι κ) (disk : Disk) : Host ι κ :=
  { s with daemon := { s.daemon with dir := disk.dir, aliasFile := disk.aliasFile } }

/-- One step of the machine. A request never sets the index policy of the vault it holds: the daemon
sets it where it makes the handle, in the scan and in the create prompt. -/
def step [DecidableEq ι] [DecidableEq κ] (x : Externals) (toml : Toml) (cfg : Config)
    (jobs : κ → ImportJob) (s : Host ι κ) : HostAction ι κ → Option (Host ι κ)
  | .daemon (.operate _ (.setIndexAttributes _)) => none
  | .daemon a => (s.daemon.step x toml cfg a).map fun daemon => { s with daemon }
  | .run k a =>
    ((jobs k).step x toml cfg s.disk (s.runs k) a).map fun (phase, disk) =>
      { s.setDisk disk with runs := Function.update s.runs k phase }
  | .restart =>
    (Daemon.boot ι x toml cfg s.daemon.dir s.daemon.aliasFile).map fun daemon => { s with daemon }

/-- A daemon that has just started, and no run that has begun. -/
def start (κ : Type) (daemon : Daemon ι) : Host ι κ := ⟨daemon, fun _ => .checking⟩

end Host

end SecretManager.Import
