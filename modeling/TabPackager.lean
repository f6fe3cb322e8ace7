import TabPackager.Archive.Contents
import TabPackager.Archive.Crc32
import TabPackager.CommandLine.Run
import TabPackager.FileSystem.Listing
import TabPackager.Main
import TabPackager.Shell.Process
import TabPackager.Proofs.Actions
import TabPackager.Proofs.PipelineTrace
import TabPackager.Proofs.Resolution
import TabPackager.Proofs.Places
import TabPackager.Proofs.Achievements
import TabPackager.Proofs.Explanations
import TabPackager.Proofs.Overlay
import TabPackager.Proofs.OwnFiles
import TabPackager.Proofs.NewDirectories
import TabPackager.Proofs.ArchiveWriting
import TabPackager.Proofs.BundleAtomicity
import TabPackager.Proofs.PlainTasks
import TabPackager.Proofs.RunStages
import TabPackager.Proofs.OutcomeTable
import TabPackager.Proofs.Processes
import TabPackager.Proofs.Rehearsals
import TabPackager.Proofs.ShellWords
import TabPackager.Proofs.Trimming
import TabPackager.Proofs.Acceptance
import TabPackager.Proofs.TextLists
import TabPackager.Proofs.Results
import TabPackager.Proofs.KeptEntries
import TabPackager.Proofs.CoherentFiles
import TabPackager.Proofs.BundleContents
import TabPackager.Proofs.StoredMembers
import TabPackager.Proofs.ReturnedCalls
import TabPackager.Proofs.SelfContained
import TabPackager.Proofs.Diagnostics
import TabPackager.Proofs.FileReading
import TabPackager.Proofs.EscapedRuns
import TabPackager.Proofs.ConcurrentBundles
import TabPackager.Proofs.ArgumentItems
import TabPackager.Proofs.ArtifactPaths
import TabPackager.Proofs.MemberNames
import TabPackager.Proofs.OwnRemovals
import TabPackager.Proofs.UnknownOptions
import TabPackager.Proofs.BundledRuns
import TabPackager.Proofs.Separator
import TabPackager.Proofs.CompressionParameters
import TabPackager.Proofs.KeyOrder
import TabPackager.Proofs.SettledArchives
import TabPackager.Proofs.ReproducibleBundles
import TabPackager.Proofs.FormatResolution
import TabPackager.Proofs.TargetDirectory
import TabPackager.Proofs.PackageOptions
import TabPackager.Proofs.VerboseFlags
