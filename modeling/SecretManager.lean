import SecretManager.Laws.Dbus.AliasSerial
import SecretManager.Laws.Dbus.AliasRest
import SecretManager.Laws.Dbus.AliasReload
import SecretManager.Laws.Dbus.Deletes
import SecretManager.Laws.Dbus.Disconnects
import SecretManager.Laws.Dbus.Reloads
import SecretManager.Laws.Dbus.Broken
import SecretManager.Laws.Dbus.Pins
import SecretManager.Laws.Dbus.Idle
import SecretManager.Laws.Dbus.Relocks
import SecretManager.Laws.Dbus.Strays
import SecretManager.Laws.Dbus.Departures
import SecretManager.Laws.Dbus.Residue
import SecretManager.Laws.Dbus.CreateAliases
import SecretManager.Laws.Dbus.Quotas
import SecretManager.Laws.Dbus.Batches
import SecretManager.Laws.Box
import SecretManager.Laws.Import.Formats
import SecretManager.Laws.Import.KWallet
import SecretManager.Laws.Dbus.Items
import SecretManager.Laws.Dbus.Paths
import SecretManager.Laws.Vault.Container
import SecretManager.Laws.Vault.Convergence
import SecretManager.Laws.Import.Reconciliation
import SecretManager.Laws.Import.Probes
import SecretManager.Laws.Import.Report
import SecretManager.Laws.Import.Gnome
import SecretManager.Laws.Import.Neighbours
import SecretManager.Laws.Import.LockedSearch
import SecretManager.Laws.Import.DefaultAlias
import SecretManager.Laws.Pam.Budget
import SecretManager.Laws.Kdf
import SecretManager.Laws.Control.Protocol
import SecretManager.Laws.Gpg
import SecretManager.Laws.Prompt.Pinentry
