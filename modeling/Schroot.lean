import Schroot.ChrootWriting
import Schroot.SessionStatus
import Schroot.SessionBrackets
import Schroot.SessionSignals
import Schroot.SessionStages
import Schroot.SessionAuth
import Schroot.ScriptVariables
import Schroot.KeyfilePrinting
import Schroot.RunParts
import Schroot.MountPath
import Schroot.ChrootAliases
import Schroot.SessionResources
import Schroot.SessionFile
import Schroot.ChrootLines
import Schroot.RunPartsOrder
import Schroot.RunPartsPipes
import Schroot.UserdataOptions
import Schroot.KeyfileValues
import Schroot.ChrootCopies
import Schroot.AliasWarnings
import Schroot.SourceNames
import Schroot.MainConfig
import Schroot.CommandEnvironment
import Schroot.EnvironmentStrings
import Schroot.KeyfileLists
import Schroot.KeyfileMerge
import Schroot.StringSplitting
import Schroot.PathIndexing
import Schroot.ListMounts
import Schroot.ChrootReloads
import Schroot.SessionReloads
import Schroot.CommandLines
import Schroot.ConfigFiles
import Schroot.SessionEffects
import Schroot.SchrootSessions
import Schroot.SessionPrepared
import Schroot.Invocations
import Schroot.SessionLifecycle
import Schroot.SharedRuns
