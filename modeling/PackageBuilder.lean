import PackageBuilder.Builder.Build
import PackageBuilder.Builder.Sequence
import PackageBuilder.Builder.Cut
import PackageBuilder.Builder.Calm
import PackageBuilder.Builder.CalmBuild
import PackageBuilder.Builder.Script
import PackageBuilder.Builder.Run
import PackageBuilder.Builder.Endings
import PackageBuilder.Library.Trace
import PackageBuilder.Builder.Protocol
import PackageBuilder.Builder.Completion
import PackageBuilder.Builder.Broker
import PackageBuilder.Builder.Summary
import PackageBuilder.Builder.Tarball
import PackageBuilder.Library.FileTree
import PackageBuilder.Library.Interleaving
import PackageBuilder.Server.Handler
import PackageBuilder.Server.BuilderProcess
import PackageBuilder.Server.System
import PackageBuilder.Server.Requests
import PackageBuilder.Server.Acknowledgement
import PackageBuilder.Server.View
import PackageBuilder.Server.Apart
import PackageBuilder.Server.Alone
import PackageBuilder.Server.Isolation
import PackageBuilder.Builder.Platform
import PackageBuilder.Duration
import PackageBuilder.FrontEnd
import PackageBuilder.Builder.Gate
import PackageBuilder.Library.Posix
import PackageBuilder.Server.Body
import PackageBuilder.Server.Rejected
import PackageBuilder.Server.JobPaths
import PackageBuilder.Library.Listing
import PackageBuilder.CleanUpIssues
import PackageBuilder.CleanUpRuns
import PackageBuilder.Library.Shell
import PackageBuilder.Builder.Commands
import PackageBuilder.Library.Triple
import PackageBuilder.Builder.ShellCommands
import PackageBuilder.Builder.RunCommands
import PackageBuilder.Builder.CleanUp
import PackageBuilder.InstallPkgDeps.Arguments
import PackageBuilder.InstallPkgDeps.Libraries
import PackageBuilder.InstallPkgDeps.Reruns
import PackageBuilder.Library.Framing
import PackageBuilder.Library.PathText
import PackageBuilder.Server.Spared
import PackageBuilder.Server.Handoff
import PackageBuilder.Server.SameRun
import PackageBuilder.Web.Stomp
import PackageBuilder.Web.Connection
import PackageBuilder.Web.Relay
import PackageBuilder.Web.Requests
import PackageBuilder.Web.Page
import PackageBuilder.Web.Badges
import PackageBuilder.Web.FinishedBuild
import PackageBuilder.Web.JobIds
import PackageBuilder.Web.NodeView
import PackageBuilder.Web.AnyBuild
import PackageBuilder.Web.Unseen
import PackageBuilder.Web.StaticFiles
