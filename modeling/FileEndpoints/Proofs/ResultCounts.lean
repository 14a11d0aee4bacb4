import FileEndpoints.Proofs.RequestBodies
import FileEndpoints.Proofs.SettingsTables
import FileEndpoints.Proofs.SingleSlot

namespace FileEndpoints

namespace WebSearch

/-- The readable text that shows just these results. -/
def listing : List Json → String
  | [] => header ++ "No results returned\n"
  | shown => header ++ blocks 1 shown

/-- The body of a reply is JSON and holds these results. -/
def Results (body : String) (items : List Json) : Prop :=
  ∃ reply, Json.ofBytes? (Text.encode body) = some reply ∧ reply.get? "results" = some (.arr items)

theorem Results.format_eq {body : String} {items : List Json} (h : Results body items)
    (limit : Int) : format (Text.encode body) limit = listing (limited limit items) := by
  obtain ⟨reply, hreply, hitems⟩ := h
  simp only [format, hreply, hitems]
  rfl

end WebSearch

namespace SearchSettings

/-- The number of results asked for when a payload names none, as one of the settings. -/
def countSetting : Setting SearchSettings :=
  { view r := r.maxResults, first := 3, keys := ["default_max_results"], Reads := IsWhole id }

theorem countSetting_mem : countSetting ∈ table :=
  List.mem_of_getElem? (i := 3) rfl

/-- A call for a payload asks for a number of results, under a default. -/
structure AsksFor (data : Bytes) (default : Int) (call : PendingCall) (n : Int) : Prop where
  limit : call.resultLimit = some n
  body : ∃ q, call.request.body = .obj [("max_results", .num (.int n)), ("query", .str q)]
  named : ∀ k, NamesCount data k → n = k
  unnamed : (∀ k, ¬ NamesCount data k) → n = default
  positive : 0 < n ↔ (∃ k, NamesCount data k) ∨ 0 < default

theorem parse_count {r : SearchSettings} {data : Bytes} {q : String} {n : Int}
    (h : r.parse data = .ok (q, n)) : r.Count data n := by
  have hcount := getD_eq_iff (namesCount_iff data) r.maxResults
  apply (hcount n).1
  simp only [parse] at h
  split at h
  · cases h
  · exact (Prod.mk.inj (Except.ok.inj h)).2

theorem NamesCount.unique {data : Bytes} {n k : Int} (h : NamesCount data n)
    (hk : NamesCount data k) : n = k :=
  Option.some.inj (((namesCount_iff data n).2 h).symm.trans ((namesCount_iff data k).2 hk))

theorem NamesCount.pos {data : Bytes} {n : Int} (h : NamesCount data n) : 0 < n := by
  obtain ⟨root, -, -, hpos, -⟩ := h
  exact hpos

theorem Count.positive_iff {r : SearchSettings} {data : Bytes} {n : Int} (h : r.Count data n) :
    0 < n ↔ (∃ k, NamesCount data k) ∨ 0 < r.maxResults := by
  rcases h with hnamed | ⟨hnone, rfl⟩
  · exact iff_of_true hnamed.pos (.inl ⟨n, hnamed⟩)
  · constructor
    · exact .inr
    · rintro (⟨k, hk⟩ | hpos)
      · exact absurd hk (hnone k)
      · exact hpos

theorem asksFor {s : Services} {e : SearchEndpoint} {path : String} {data : Bytes}
    {call : PendingCall} (h : (e.beginWrite s path data).call? = some call) :
    ∃ n, AsksFor data e.settings.maxResults call n := by
  obtain ⟨-, -, hcompose⟩ := Eager.call_composed h
  obtain ⟨q, n, hparse, hbody, hlimit⟩ := compose_ok hcompose
  have hcount := parse_count hparse
  refine ⟨n, hlimit, ⟨q, hbody⟩, ?_, ?_, hcount.positive_iff⟩
  · intro k hk
    rcases hcount with hn | ⟨hnone, -⟩
    · exact hn.unique hk
    · exact absurd hk (hnone k)
  · intro hnone
    rcases hcount with hn | ⟨-, hn⟩
    · exact absurd hn (hnone n)
    · exact hn

/-- A search asks for and shows a positive number of results if its payload names one or the default
is positive; otherwise it asks for the default number and shows all results. -/
theorem result_count_positive_iff (before : List (Services × Move)) (s : Services) (path : String)
    (data : Bytes) (call : PendingCall) :
    let opened := (Session.fresh SearchSettings).run before
    (opened.endpoint.beginWrite s path data).call? = some call →
      ∃ default n : Int,
        Settled countSetting.Gives countSetting.first (before.map Prod.snd) default ∧
        AsksFor data default call n ∧
        ∀ (between : List (Services × Move)) (later : Services) (time : Time.Instant)
          (body : String) (items : List Json),
          later.now = .ok time → (∀ m ∈ between, m.2.accepted SearchSettings = false) →
          WebSearch.Results body items →
            let w := opened.run ((s, .begin path data) :: between)
            let finish := Move.finish opened.calls.length (.ok body)
            (w.step later finish).endpoint.cache.summary =
              some (WebSearch.listing (if 0 < n then items.take n.toNat else items)) := by
  intro opened hcall
  obtain ⟨n, hasks⟩ := asksFor hcall
  have hsettled := mergesDocuments.settled Eager.create rfl before _ countSetting_mem
  refine ⟨opened.endpoint.settings.maxResults, n, hsettled, hasks, ?_⟩
  intro between later time body items hnow hbetween hresults w finish
  obtain ⟨-, text, ⟨limit, hlimit, htext⟩, hinstalled⟩ :=
    singleSlot.installed before between s later path data call body time hcall hnow hbetween
  obtain rfl := Option.some.inj (hasks.limit.symm.trans hlimit)
  rw [hinstalled]
  exact congrArg some (htext.trans (hresults.format_eq n))

/-- A payload that names two results shows two of three, whatever the default. -/
theorem two_results_of_three_shown :
    let s := Services.steady ⟨0⟩ (.error .noTransport) .crashed
    let document := some "\x7b\"default_max_results\":-1\x7d"
    let opened := (Session.fresh SearchSettings).run [(s, .use (.configure document))]
    let data := Text.encode "\x7b\"query\":\"q\",\"max_results\":2\x7d"
    ∃ call, (opened.endpoint.beginWrite s "/request" data).call? = some call ∧
      call.resultLimit = some 2 ∧
      ((opened.step s (.begin "/request" data)).step s
        (.finish 0 (.ok "\x7b\"results\":[1,2,3]\x7d"))).endpoint.cache.summary =
          some (WebSearch.listing [.ofInt 1, .ofInt 2]) := by
  intro s document opened data
  obtain ⟨call, hcall⟩ :
      ∃ call, (opened.endpoint.beginWrite s "/request" data).call? = some call := ⟨_, rfl⟩
  obtain ⟨default, n, -, hasks, hshown⟩ :=
    result_count_positive_iff [(s, .use (.configure document))] s "/request" data call hcall
  have hnamed : NamesCount data 2 :=
    ⟨.obj [("max_results", .num (.int 2)), ("query", .str "q")], rfl, rfl, by decide, by decide⟩
  obtain rfl := hasks.named 2 hnamed
  refine ⟨call, hcall, hasks.limit, ?_⟩
  exact hshown [] s ⟨0⟩ "\x7b\"results\":[1,2,3]\x7d" [.ofInt 1, .ofInt 2, .ofInt 3] rfl
    (fun _ hm => nomatch hm) ⟨_, rfl, rfl⟩

/-- A default of no results at all is asked for. -/
theorem default_of_zero_asked_for :
    ¬ ∀ (before : List (Services × Move)) (s : Services) (path : String) (data : Bytes)
      (call : PendingCall),
      (((Session.fresh SearchSettings).run before).endpoint.beginWrite s path data).call? =
          some call →
        ∃ n q, 0 < n ∧ call.resultLimit = some n ∧
          call.request.body = .obj [("max_results", .num (.int n)), ("query", .str q)] := by
  intro h
  let s := Services.steady ⟨0⟩ (.error .noTransport) .crashed
  let document := some "\x7b\"default_max_results\":0\x7d"
  obtain ⟨n, q, hpos, hlimit, -⟩ :=
    h [(s, .use (.configure document))] s "/request" [113] _ rfl
  cases hlimit
  exact absurd hpos (by decide)

end SearchSettings

end FileEndpoints
