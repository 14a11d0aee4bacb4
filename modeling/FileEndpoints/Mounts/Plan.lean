import FileEndpoints.Json.Writer

namespace FileEndpoints

structure MountSpec where
  plugin : String
  path : String
  settings : Option Json := none

def MountSpec.document (m : MountSpec) : Option String :=
  m.settings.map Json.render

structure MountPlan where
  mounts : List MountSpec

def MountPlan.standard : MountPlan where
  mounts :=
    [{ plugin := "simpcurlfs", path := "/search"
       settings := some (.ofMembers [("default_max_results", .ofInt 3)]) },
      { plugin := "summaryfs", path := "/summary"
        settings := some (.ofMembers [("model", .str "gpt-4o-mini")]) },
      { plugin := "skillsfs", path := "/skills"
        settings := some (.ofMembers
          [("skill_name", .str "skillfs-mvp"), ("cache_ttl_seconds", .ofInt 3600)]) }]

end FileEndpoints
