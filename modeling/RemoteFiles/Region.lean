import RemoteFiles.Failure

/-!
# Regions

Where a sandbox is hosted.

## Main definitions

* `Region` — the regions.
* `Region.code`, `Region.baseUrl` — the name of a region and its address.
* `Region.parse`, `Region.ofSetting` — the region with a name, and the one that a setting means.
-/

namespace RemoteFiles

/-- Where a sandbox is hosted. -/
inductive Region where
  | beijing
  | shanghai
  deriving DecidableEq, Repr

namespace Region

/-- The name of a region, as it stands in the scope of a signature. -/
def code : Region → String
  | beijing => "cn-beijing"
  | shanghai => "cn-shanghai"

/-- The address of a region. -/
def baseUrl : Region → String
  | beijing => "https://agentkit.cn-beijing.volces.com"
  | shanghai => "https://agentkit.cn-shanghai.volces.com"

/-- The region with a name. -/
def parse (name : String) : Except ConfigError Region :=
  if name = beijing.code then .ok beijing
  else if name = shanghai.code then .ok shanghai
  else .error (.invalidRegion name)

/-- The region that a setting means; the empty one means Beijing. -/
def ofSetting (name : String) : Except ConfigError Region :=
  if name = "" then .ok beijing else parse name

end Region
end RemoteFiles
