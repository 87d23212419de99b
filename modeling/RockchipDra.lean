import RockchipDra.Discovery.Ordinals
import RockchipDra.Plugin.Agreement
import RockchipDra.Plugin.Calls
import RockchipDra.Plugin.Classes
import RockchipDra.Plugin.Cleanup
import RockchipDra.Plugin.Crash
import RockchipDra.Plugin.Driver
import RockchipDra.Plugin.Environment
import RockchipDra.Plugin.Handover
import RockchipDra.Plugin.Identifiers
import RockchipDra.Plugin.Leftovers
import RockchipDra.Plugin.Naming
import RockchipDra.Plugin.Order
import RockchipDra.Plugin.Published
import RockchipDra.Plugin.Quiet
import RockchipDra.Plugin.Restart
import RockchipDra.Plugin.Rolling
import RockchipDra.Plugin.Shares
import RockchipDra.Plugin.Timing
import RockchipDra.Plugin.Wakeups
import RockchipDra.Release.Rerender
import RockchipDra.Release.Train
import RockchipDra.Release.Updates
