import PluginLoader.Main
import PluginLoader.Proofs.ClassHeader.Grammar
import PluginLoader.Proofs.ClassHeader.ModifiedUtf8
import PluginLoader.Proofs.ClassHeader.Prefixes
import PluginLoader.Proofs.Resolution.Completeness
import PluginLoader.Proofs.Resolution.Verification
import PluginLoader.Text.Quoted
import PluginLoader.Proofs.ClassHeader.CodedText
import PluginLoader.Proofs.ClassHeader.Unreferenced
import PluginLoader.Proofs.Resolution.Effects
import PluginLoader.Proofs.Resolution.Failures
import PluginLoader.Proofs.Archive.Enumeration
import PluginLoader.Proofs.Resolution.Listed
import PluginLoader.Proofs.Resolution.Crashes
import PluginLoader.Proofs.Scanning
import PluginLoader.Proofs.ClassHeader.Alignment
import PluginLoader.Proofs.Configuration.Hosts
import PluginLoader.Proofs.Command.Output
import PluginLoader.Proofs.Configuration.Saving
