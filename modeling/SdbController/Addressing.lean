import Mathlib.Data.Bool.AllAny
import SdbController.Credentials
import SdbController.Kubernetes.Endpoint

/-!
# Four ways to the same server

The Service of a Cluster is addressed in four places: where it is built, where the root user is
defined through the service proxy, where the other controllers send their statements, and where a
User's ConfigMap publishes it. The third one builds a URL and takes its host apart again, label by
label, so it finds the Service only if the name of the Cluster is a single label.

## Main results

* `one_endpoint_iff` — when the four addresses are one
* `dotted_cluster_misdirected` — a Cluster whose credentials are sent to another namespace
-/

namespace SdbController

open Interaction Program Kubernetes

/-- Where the server of a Cluster is meant to be. -/
def Cluster.endpoint (c : Cluster) : Endpoint := ⟨c.ns, c.name ++ "-surrealdb", 8000⟩

/-- The ports of a Service. -/
def Service.endpoints (s : Service) : List Endpoint :=
  s.ports.map fun p => ⟨s.metadata.ns, s.metadata.name, p.port⟩

/-- What a URL names inside the cluster. -/
def Externals.urlEndpoint (libs : Externals) (url : String) : Option Endpoint :=
  match libs.urlParse url with
  | .ok ⟨some host, some port, _⟩ => dnsEndpoint host port
  | _ => none

/-- The host in the addresses of a Cluster. -/
def sqlHost (clusterNs clusterName : String) : String :=
  clusterName ++ "-surrealdb." ++ clusterNs ++ ".svc.cluster.local"

/-- The URL parser takes the published address of a Cluster apart as it should. -/
def Externals.ParsesBase (libs : Externals) (clusterNs clusterName : String) : Prop :=
  libs.urlParse ("http://" ++ clusterName ++ "-surrealdb." ++ clusterNs ++
    ".svc.cluster.local:8000") = .ok ⟨some (sqlHost clusterNs clusterName), some 8000, "/"⟩

/-- The four addresses are one, whatever is sent. -/
def Cluster.OneEndpoint (libs : Externals) (c : Cluster) : Prop :=
  ∃ e, (c.buildSurrealService c.name).endpoints = [e] ∧
    (∀ user pass, proxyEndpoint (c.bootstrapRequest c.name user pass).uri = some e) ∧
    (∀ user pass sql, ∃ request, sqlRequest libs .kube c.ns c.name user pass sql = .ok request ∧
      proxyEndpoint request.request.uri = some e) ∧
    ∀ u : User, u.cluster = c.key → ∃ url, u.ownConfigMap.data.lookup "url" = some url ∧
      libs.urlEndpoint url = some e

section Addresses

variable {libs : Externals} {c : Cluster} {clusterNs clusterName : String}

theorem sqlHost_toList : (sqlHost clusterNs clusterName).toList =
    (clusterName.toList ++ "-surrealdb".toList) ++ '.' :: (clusterNs.toList ++
      '.' :: ("svc".toList ++ '.' :: ("cluster".toList ++ '.' :: "local".toList))) := by
  simp [sqlHost]

/-- The address that `post` builds, by the labels it takes. -/
theorem sqlRequest_uri (hparse : libs.Parses clusterNs clusterName) {svc ns : String}
    {rest : List String} (hlabels : hostLabels (sqlHost clusterNs clusterName) = svc :: ns :: rest)
    (user pass : String) (sql : Sql) :
    ∃ request, sqlRequest libs .kube clusterNs clusterName user pass sql = .ok request ∧
      request.request.uri = (Endpoint.mk ns svc 8000).proxyPath ++ "/sql" := by
  have hlen := five_le_length_hostLabels clusterNs clusterName
  change 5 ≤ (hostLabels (sqlHost clusterNs clusterName)).length at hlen
  have hrest : 2 < rest.length := by
    rw [hlabels, List.length_cons, List.length_cons] at hlen
    omega
  rw [sqlRequest, Client.post]
  rw [hparse]
  dsimp only
  rw [serviceLabels_eq, ← sqlHost, hlabels]
  dsimp only [List.getElem?_cons_zero, List.getElem?_cons_succ]
  rw [if_pos (show (List.drop 2 (svc :: ns :: rest)).length > 2 from hrest)]
  exact ⟨_, rfl, rfl⟩

/-- The path of the endpoint, with what `sql` requests append to it. -/
theorem proxyEndpoint_sql {e : Endpoint} (hns : '/' ∉ e.ns.toList)
    (hservice : ∀ ch ∈ e.service.toList, ch ≠ '/' ∧ ch ≠ ':') :
    proxyEndpoint (e.proxyPath ++ "/sql") = some e := by
  rw [show "/sql" = "/" ++ "sql" from rfl, ← String.append_assoc]
  exact e.proxyEndpoint_proxyPath hns hservice "sql"

/-- The name of the Service holds no separator of a proxy path. -/
theorem service_chars (hname : IsDnsSubdomain clusterName) :
    ∀ ch ∈ (clusterName ++ "-surrealdb").toList, ch ≠ '/' ∧ ch ≠ ':' := by
  have hfixed : ∀ ch ∈ "-surrealdb".toList, ch ≠ '/' ∧ ch ≠ ':' :=
    List.all_iff_forall_prop.mp (by decide)
  intro ch hch
  rw [String.toList_append] at hch
  rcases List.mem_append.mp hch with hmem | hmem
  · constructor
    · rintro rfl
      exact hname.not_mem (by decide) (by decide) hmem
    · rintro rfl
      exact hname.not_mem (by decide) (by decide) hmem
  · exact hfixed ch hmem

/-- What the request for the root user reaches. -/
theorem bootstrapRequest_endpoint (hname : IsDnsSubdomain c.name) (hns : IsDnsLabel c.ns)
    (user pass : String) :
    proxyEndpoint (c.bootstrapRequest c.name user pass).uri = some c.endpoint := by
  have huri : (c.bootstrapRequest c.name user pass).uri = c.endpoint.proxyPath ++ "/sql" := by
    have hport : toString c.endpoint.port = "8000" := show toString 8000 = "8000" from rfl
    unfold Endpoint.proxyPath
    rw [hport]
    simp only [Cluster.bootstrapRequest, Cluster.endpoint, String.append_assoc]
    rfl
  rw [huri]
  exact proxyEndpoint_sql (hns.not_mem (by decide)) (service_chars hname)

/-- What the published URL reaches. -/
theorem ownConfigMap_endpoint {u : User} (hns : IsDnsLabel c.ns)
    (hbase : libs.ParsesBase c.ns c.name) (hu : u.cluster = c.key) :
    libs.urlEndpoint ("http://" ++ u.spec.clusterRef.name ++ "-surrealdb." ++ u.clusterNs ++
      ".svc.cluster.local:8000") = some c.endpoint := by
  have hclusterNs : u.clusterNs = c.ns := congrArg ObjectKey.ns hu
  have hclusterName : u.spec.clusterRef.name = c.name := congrArg ObjectKey.name hu
  have hhost : sqlHost c.ns c.name = c.endpoint.dnsName := by
    rw [← String.toList_inj]
    simp [sqlHost, Endpoint.dnsName, Cluster.endpoint]
  rw [hclusterNs, hclusterName, Externals.urlEndpoint, hbase]
  dsimp only
  rw [hhost]
  exact c.endpoint.dnsEndpoint_dnsName (hns.not_mem (by decide))

/-- The labels of the host: the first two are what `post` takes for Service and namespace. -/
theorem exists_hostLabels (hname : IsDnsSubdomain clusterName) (hns : IsDnsLabel clusterNs) :
    ∃ svc ns rest, hostLabels (sqlHost clusterNs clusterName) = svc :: ns :: rest ∧
      '.' ∉ svc.toList ∧ (∀ ch ∈ svc.toList, ch ≠ '/' ∧ ch ≠ ':') ∧ '/' ∉ ns.toList := by
  have hplain : ∀ ch, isDnsChar ch = false → ch ≠ '.' →
      ch ∉ (sqlHost clusterNs clusterName).toList := by
    intro ch hch hdot
    have hfixed : ch ∉ "-surrealdb".toList ∧ ch ∉ "svc".toList ∧ ch ∉ "cluster".toList ∧
        ch ∉ "local".toList := by
      have key : ∀ l : List Char, l.all isDnsChar → ch ∉ l := by
        intro l hl hmem
        rw [List.all_eq_true.mp hl ch hmem] at hch
        cases hch
      exact ⟨key _ (by decide), key _ (by decide), key _ (by decide), key _ (by decide)⟩
    rw [sqlHost_toList]
    simp only [List.mem_append, List.mem_cons, not_or]
    exact ⟨⟨hname.not_mem hch hdot, hfixed.1⟩, hdot, hns.not_mem hch, hdot, hfixed.2.1, hdot,
      hfixed.2.2.1, hdot, hfixed.2.2.2⟩
  have hlen := five_le_length_hostLabels clusterNs clusterName
  change 5 ≤ (hostLabels (sqlHost clusterNs clusterName)).length at hlen
  have hmem : ∀ l ∈ hostLabels (sqlHost clusterNs clusterName), '.' ∉ l.toList ∧
      (∀ ch ∈ l.toList, ch ≠ '/' ∧ ch ≠ ':') := by
    intro l hl
    obtain ⟨chars, hchars, rfl⟩ := List.mem_map.mp hl
    obtain ⟨hdot, hsub⟩ := mem_splitOn hchars
    rw [String.toList_ofList]
    refine ⟨hdot, fun ch hch => ⟨?_, ?_⟩⟩
    · rintro rfl
      exact hplain _ (by decide) (by decide) (hsub _ hch)
    · rintro rfl
      exact hplain _ (by decide) (by decide) (hsub _ hch)
  match hostLabels (sqlHost clusterNs clusterName), hlen, hmem with
  | svc :: ns :: rest, _, hmem =>
    have hsvc := hmem svc List.mem_cons_self
    have hns := hmem ns (List.mem_cons_of_mem _ List.mem_cons_self)
    exact ⟨svc, ns, rest, rfl, hsvc.1, hsvc.2, fun h => (hns.2 _ h).1 rfl⟩

/-- What `post` reaches, whatever it sends. -/
theorem sqlRequest_endpoint (hname : IsDnsSubdomain clusterName) (hns : IsDnsLabel clusterNs)
    (hparse : libs.Parses clusterNs clusterName) :
    ∃ e : Endpoint, '.' ∉ e.service.toList ∧ ∀ user pass sql, ∃ request,
      sqlRequest libs .kube clusterNs clusterName user pass sql = .ok request ∧
        proxyEndpoint request.request.uri = some e := by
  obtain ⟨svc, ns, rest, hlabels, hdot, hsvc, hslash⟩ := exists_hostLabels hname hns
  refine ⟨⟨ns, svc, 8000⟩, hdot, fun user pass sql => ?_⟩
  obtain ⟨request, hreq, huri⟩ := sqlRequest_uri hparse hlabels user pass sql
  exact ⟨request, hreq, huri ▸ proxyEndpoint_sql hslash hsvc⟩

/-- Without a dot in the name, `post` reaches the server. -/
theorem sqlRequest_endpoint_of_label (hname : IsDnsSubdomain clusterName)
    (hns : IsDnsLabel clusterNs) (hparse : libs.Parses clusterNs clusterName)
    (hdot : '.' ∉ clusterName.toList) (user pass : String) (sql : Sql) : ∃ request,
      sqlRequest libs .kube clusterNs clusterName user pass sql = .ok request ∧
        proxyEndpoint request.request.uri =
          some ⟨clusterNs, clusterName ++ "-surrealdb", 8000⟩ := by
  have hlabels : hostLabels (sqlHost clusterNs clusterName) =
      (clusterName ++ "-surrealdb") :: clusterNs :: ["svc", "cluster", "local"] := by
    have hsvc : '.' ∉ clusterName.toList ++ "-surrealdb".toList := by
      rw [List.mem_append, not_or]
      exact ⟨hdot, by decide⟩
    rw [hostLabels, sqlHost_toList, List.splitOn_append_cons_self_of_not_mem hsvc,
      List.splitOn_append_cons_self_of_not_mem (hns.not_mem (by decide)),
      List.splitOn_append_cons_self_of_not_mem (by decide : '.' ∉ "svc".toList),
      List.splitOn_append_cons_self_of_not_mem (by decide : '.' ∉ "cluster".toList),
      List.splitOn_eq_singleton (by decide : '.' ∉ "local".toList)]
    simp only [List.map_cons, List.map_nil, String.ofList_append, String.ofList_toList]
  obtain ⟨request, hreq, huri⟩ := sqlRequest_uri hparse hlabels user pass sql
  exact ⟨request, hreq, huri ▸ proxyEndpoint_sql (hns.not_mem (by decide)) (service_chars hname)⟩

end Addresses

/-- **When the four addresses are one**: if and only if the name of the Cluster has no dot. -/
theorem one_endpoint_iff (libs : Externals) (c : Cluster) (hname : IsDnsSubdomain c.name)
    (hns : IsDnsLabel c.ns) (hparse : libs.Parses c.ns c.name)
    (hbase : libs.ParsesBase c.ns c.name) : c.OneEndpoint libs ↔ '.' ∉ c.name.toList := by
  constructor
  · rintro ⟨e, hservice, -, hpost, -⟩
    obtain rfl : c.endpoint = e := List.singleton_inj.mp hservice
    obtain ⟨e, hdot, hreached⟩ := sqlRequest_endpoint hname hns hparse
    obtain ⟨request, hreq, hend⟩ := hpost "" "" (.defineNamespace "")
    obtain ⟨request', hreq', hend'⟩ := hreached "" "" (.defineNamespace "")
    rw [hreq] at hreq'
    cases hreq'
    rw [hend] at hend'
    cases hend'
    intro hmem
    refine hdot ?_
    rw [Cluster.endpoint, String.toList_append]
    exact List.mem_append_left _ hmem
  · intro hdot
    refine ⟨c.endpoint, rfl, fun user pass => ?_, ?_, fun u hu => ⟨_, rfl, ?_⟩⟩
    · exact bootstrapRequest_endpoint hname hns user pass
    · exact sqlRequest_endpoint_of_label hname hns hparse hdot
    · exact ownConfigMap_endpoint hns hbase hu

/-- Libraries that know the two addresses of a Cluster. -/
def addressExternals (clusterNs clusterName : String) : Externals where
  urlParse url :=
    if url = sqlUrl clusterNs clusterName then
      .ok ⟨some (sqlHost clusterNs clusterName), some 8000, "/sql"⟩
    else if url = "http://" ++ clusterName ++ "-surrealdb." ++ clusterNs ++
        ".svc.cluster.local:8000" then
      .ok ⟨some (sqlHost clusterNs clusterName), some 8000, "/"⟩
    else .error "relative URL without a base"
  base64 _ := "cm9vdDpzZWNyZXQ="

theorem addressExternals_parses (clusterNs clusterName : String) :
    (addressExternals clusterNs clusterName).Parses clusterNs clusterName := by
  rw [Externals.Parses, addressExternals]
  dsimp only
  rw [if_pos rfl]
  rfl

theorem addressExternals_parsesBase (clusterNs clusterName : String) :
    (addressExternals clusterNs clusterName).ParsesBase clusterNs clusterName := by
  rw [Externals.ParsesBase, addressExternals]
  dsimp only
  rw [if_neg, if_pos rfl]
  intro heq
  have hlength := congrArg String.length heq
  simp only [sqlUrl, String.length_append, Nat.add_left_cancel_iff] at hlength
  exact absurd hlength (by decide)

theorem one_endpoint_iff_sample :
    sampleCluster.OneEndpoint (addressExternals "prod" "db") :=
  (one_endpoint_iff (addressExternals "prod" "db") sampleCluster
    ⟨by decide, List.all_iff_forall_prop.mp (by decide), by decide⟩
    ⟨by decide, List.all_iff_forall_prop.mp (by decide), by decide⟩
    (addressExternals_parses "prod" "db") (addressExternals_parsesBase "prod" "db")).mpr (by decide)

/-- A Cluster whose name is a subdomain of two labels. -/
def dottedCluster : Cluster := { sampleCluster with name := "a.b" }

/-- The statements for `dottedCluster`, with its root credentials, are sent to the Service `a` of
the namespace `b-surrealdb`. -/
theorem dotted_cluster_misdirected :
    IsDnsSubdomain dottedCluster.name ∧ IsDnsLabel dottedCluster.ns ∧
      (addressExternals "prod" "a.b").Parses dottedCluster.ns dottedCluster.name ∧
      (addressExternals "prod" "a.b").ParsesBase dottedCluster.ns dottedCluster.name ∧
      ¬ dottedCluster.OneEndpoint (addressExternals "prod" "a.b") ∧
      ∀ user pass sql, ∃ request,
        sqlRequest (addressExternals "prod" "a.b") .kube "prod" "a.b" user pass sql = .ok request ∧
          proxyEndpoint request.request.uri = some ⟨"b-surrealdb", "a", 8000⟩ := by
  have hparse := addressExternals_parses "prod" "a.b"
  have hlabels : hostLabels (sqlHost "prod" "a.b") =
      "a" :: "b-surrealdb" :: ["prod", "svc", "cluster", "local"] := by decide
  have hreached : ∀ user pass sql, ∃ request,
      sqlRequest (addressExternals "prod" "a.b") .kube "prod" "a.b" user pass sql = .ok request ∧
        proxyEndpoint request.request.uri = some ⟨"b-surrealdb", "a", 8000⟩ := by
    intro user pass sql
    obtain ⟨request, hreq, huri⟩ := sqlRequest_uri hparse hlabels user pass sql
    exact ⟨request, hreq, huri ▸ proxyEndpoint_sql (by decide)
      (List.all_iff_forall_prop.mp (by decide))⟩
  refine ⟨⟨by decide, List.all_iff_forall_prop.mp (by decide), by decide⟩,
    ⟨by decide, List.all_iff_forall_prop.mp (by decide), by decide⟩, hparse,
    addressExternals_parsesBase "prod" "a.b", ?_, hreached⟩
  rintro ⟨e, hservice, -, hpost, -⟩
  obtain rfl : dottedCluster.endpoint = e := List.singleton_inj.mp hservice
  obtain ⟨request, hreq, hend⟩ := hpost "root" "secret" (.defineNamespace "shop")
  obtain ⟨request', hreq', hend'⟩ := hreached "root" "secret" (.defineNamespace "shop")
  obtain rfl : request = request' := Except.ok.inj (hreq.symm.trans hreq')
  rw [hend] at hend'
  exact absurd (Option.some.inj hend') (by decide)

end SdbController
