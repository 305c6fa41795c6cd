import Shield.Go.Sort
import Shield.Go.Path
import Shield.Go.Match
import Shield.Fs.Basic
import Shield.Fs.Ops
import Shield.Fs.Glob
import Shield.Fs.Archive
import Shield.Prog
import Shield.EarlyExit
import Shield.Endpoint
import Shield.World.Basic
import Shield.World.Frame
import Shield.World.Triple
import Shield.Cassandra.Plugin
import Shield.Cassandra.Cleanup
import Shield.Cassandra.Filter
import Shield.Cassandra.Ownership
import Shield.Cassandra.Staging
import Shield.Cassandra.RoundTrip
import Shield.XtraBackup.Plugin
import Shield.XtraBackup.Backup
import Shield.XtraBackup.Restore
import Shield.XtraBackup.Scope
import Shield.Validate
