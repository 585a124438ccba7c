import PluginHost.Demo
import PluginHost.CommandLine.Run
import PluginHost.Proofs.Manage.Atomicity
import PluginHost.Proofs.Rpc.Transparency
import PluginHost.Proofs.Rpc.RoundTrip
import PluginHost.Proofs.Files.Reading
import PluginHost.Proofs.Release.Integrity
import PluginHost.Proofs.Release.Containment
import PluginHost.Proofs.Manage.Installing
import PluginHost.Proofs.Manage.Updating
import PluginHost.Proofs.Handshake
import PluginHost.Proofs.CommandLine.ConfigEdits
import PluginHost.Proofs.CommandLine.Passthrough
import PluginHost.Proofs.Plugin.Isolation
import PluginHost.Proofs.Plugin.Interrupt
import PluginHost.Proofs.Config.Edits
import PluginHost.Proofs.Plugin.Answering
import PluginHost.Proofs.CommandLine.Limits
import PluginHost.Proofs.CommandLine.Masking
import PluginHost.Proofs.CommandLine.Disclosure
import PluginHost.Proofs.Rpc.Acceptance
import PluginHost.Proofs.Archive.Programs
import PluginHost.Proofs.Archive.DotPrefix
import PluginHost.Proofs.Archive.GzipMembers
import PluginHost.Proofs.Release.Selection
import PluginHost.Proofs.Release.Companions
import PluginHost.Proofs.Release.Marks
import PluginHost.Proofs.Config.Settings
import PluginHost.Proofs.CommandLine.Removal
import PluginHost.Proofs.Plugin.Registering
import PluginHost.Proofs.Manage.Repositories
import PluginHost.Proofs.Manage.Tables
import PluginHost.Proofs.Children.Relaying
