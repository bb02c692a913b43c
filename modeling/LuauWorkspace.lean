import LuauWorkspace.FileSystem.Memory
import LuauWorkspace.Main
import LuauWorkspace.Proofs.DataModule.Reading
import LuauWorkspace.Proofs.Require.Notation
import LuauWorkspace.Proofs.Require.Substitution
import LuauWorkspace.Proofs.Resolver.Aliases
import LuauWorkspace.Proofs.Resolver.Cascade
import LuauWorkspace.Proofs.Resolver.DisplayNames
import LuauWorkspace.Proofs.Resolver.DocumentNames
import LuauWorkspace.Proofs.Resolver.Failure
import LuauWorkspace.Proofs.Resolver.Invalidation
import LuauWorkspace.Proofs.Resolver.Mirror
import LuauWorkspace.Proofs.Resolver.NormalForms
import LuauWorkspace.Proofs.Resolver.Overlay
import LuauWorkspace.Proofs.Resolver.Refresh
import LuauWorkspace.Proofs.Resolver.Relative
import LuauWorkspace.Proofs.Resolver.Reordering
import LuauWorkspace.Proofs.Resolver.Saving
import LuauWorkspace.Proofs.Resolver.Serving
import LuauWorkspace.Proofs.Resolver.Spelling
import LuauWorkspace.Proofs.Resolver.Walk
import LuauWorkspace.Proofs.SourceTree.Reordering
import LuauWorkspace.Proofs.Uri.Spelling
import LuauWorkspace.Uri.Parser
