import ChaiBeast.Dump.Uploader
import ChaiBeast.Paths
import ChaiBeast.Routing.PathOffsets

namespace ChaiBeast.Dump

open ChaiBeast.Data ChaiBeast.Routing

/-! Which file a served dump request names, and when that file lies below the
root directory. -/

def dumpPrefix : CppString := "/redfish/v1/Systems/system/LogServices/Dump/".toList

def dumpSuffix : CppString := "/attachment".toList

theorem dumpRoute_cut :
    getMatched dumpRoute = ["filename".toList] ∧ getUnmatched dumpRoute = [dumpPrefix, dumpSuffix] := by
  decide +kernel

/-- A target that the dump route serves: its first `dumpPrefix`, then `value`
up to the first `dumpSuffix`, and behind that nothing but an optional query
without a slash, made of `params`. -/
structure DumpTarget (target before value : CppString) (query : Option CppString)
    (params : List Parameter) : Prop where
  spelled : target = before ++ (dumpPrefix ++ (value ++ dumpSuffix)) ++
    (query.map ('?' :: ·)).getD []
  route : FirstAt dumpPrefix before (value ++ dumpSuffix)
    (before ++ (dumpPrefix ++ (value ++ dumpSuffix)))
  attachment : FirstAt dumpSuffix value [] (value ++ dumpSuffix)
  slashFree : ∀ text ∈ query, '/' ∉ text
  pairs : (query.map fun text => (split text '&').mapM parsePair).getD (.ok []) = .ok params

def requestedFile (value : CppString) (params : List Parameter) : CppString :=
  match params.find? (fun p => p.name == "filename".toList) with
  | some p => p.value
  | none => value

theorem parseFunction_name {target : CppString} {func : HttpFunction}
    (parsed : parseFunction target = .ok func) (named : func.name ≠ []) :
    ∃ query : Option CppString, target = func.name ++ (query.map ('?' :: ·)).getD [] ∧
      (∀ text ∈ query, '/' ∉ text) ∧
      (query.map fun text => (split text '&').mapM parsePair).getD (.ok []) = .ok func.params := by
  rcases parseFunction_cases parsed with
    ⟨_, rfl⟩ | ⟨front, last, _, _, _, rfl⟩ | ⟨front, last, query, rfl, slashFree, _, name, pairs⟩
  · exact absurd rfl named
  · exact ⟨none, by simp, by simp, rfl⟩
  · refine ⟨some query, by simp [name], ?_, by simpa using pairs⟩
    simpa using fun member => slashFree (by simp [member])

theorem get_append_filename (name value : CppString) (params : List Parameter) :
    (HttpFunction.mk name (params ++ [⟨"filename".toList, value⟩])).get "filename".toList =
      requestedFile value params := by
  unfold HttpFunction.get requestedFile
  rw [List.find?_append]
  cases params.find? (fun p => p.name == "filename".toList) with
  | some p => rfl
  | none => simp only [List.find?_cons, beq_self_eq_true, Option.none_or]

/-- Every request dispatched to the dump route has the shape of `DumpTarget`,
and the handler sees the requested file under `filename`. -/
theorem dispatch_dumpTarget {H : Type} {router : HttpRouter H} {req : VariantRequest}
    {call : Dispatch H} (dispatched : router.dispatch req = .ok call)
    (routed : call.key.path = dumpRoute) :
    ∃ before value query params, DumpTarget req.target before value query params ∧
      call.httpfunc.get "filename".toList = requestedFile value params := by
  obtain ⟨func, parsed, found, extracted⟩ := dispatchFrom_ok dispatched
  have matched := HttpRouter.find_matches found
  have sameMethod : call.key.method = req.method := RequestMapper.beq_method matched
  have key : call.key = ⟨dumpRoute, req.method⟩ := by rw [← routed, ← sameMethod]
  dsimp only at matched
  rw [key, RequestMapper.beq_iff_scan (by rw [dumpRoute_cut.2]; decide), dumpRoute_cut.2] at matched
  obtain ⟨gaps, scanned⟩ := matched
  obtain ⟨before, later, middle, rfl, route, tail⟩ := scan_cons_inv scanned
  obtain ⟨value, none, last, rfl, attachment, ending⟩ := scan_cons_inv tail
  simp only [scan_nil, Option.some.injEq, Prod.mk.injEq] at ending
  obtain ⟨rfl, rfl⟩ := ending
  have inner : middle = value ++ dumpSuffix := by simpa using attachment.split
  subst inner
  have name : func.name = before ++ (dumpPrefix ++ (value ++ dumpSuffix)) := route.split
  have short := parsed_short parsed
  have small : ∀ offset ∈ startOffsets 0 [before, value] [dumpPrefix, dumpSuffix], offset < 2 ^ 31 :=
    (startOffsets_lt_iff scanned).mpr fun _ _ => by omega
  rw [← dumpRoute_cut.2] at scanned small
  rw [routed, extractParamsFromPath_of_scan (by rw [dumpRoute_cut.2]; decide) scanned small,
    dumpRoute_cut.1] at extracted
  have suffixed : dumpSuffix ≠ [] := by decide
  obtain ⟨query, spelled, slashFree, pairs⟩ := parseFunction_name parsed (by simp [name, suffixed])
  refine ⟨before, value, query, func.params, ⟨by rw [spelled, name], name ▸ route, attachment,
    slashFree, pairs⟩, ?_⟩
  simp only [List.length_singleton, if_true, Except.ok.injEq] at extracted
  rw [← extracted]
  exact get_append_filename func.name value func.params

theorem filePath_root (root : RootPath) (name : CppString) :
    (DumpUploader.mk root.text).filePath name = root.text ++ name := by
  rw [DumpUploader.filePath, cString_of_noNul root.noNul]

/-- The path built for a dispatched dump request is `R` followed by the file
the request names, and it lies strictly below `R` exactly when that file, by
itself, takes back every step up and then names something. -/
theorem processUpload_below_iff (root : RootPath) {H : Type} {router : HttpRouter H}
    {req : VariantRequest} {call : Dispatch H} (dispatched : router.dispatch req = .ok call)
    (routed : call.key.path = dumpRoute) :
    ∃ before value query params, DumpTarget req.target before value query params ∧
      (DumpUploader.mk root.text).filePath (call.httpfunc.get "filename".toList) =
        root.text ++ requestedFile value params ∧
      (PathBelow root.text
          ((DumpUploader.mk root.text).filePath (call.httpfunc.get "filename".toList)) ↔
        root.Returns (requestedFile value params)) := by
  obtain ⟨before, value, query, params, shape, file⟩ := dispatch_dumpTarget dispatched routed
  have path : (DumpUploader.mk root.text).filePath (call.httpfunc.get "filename".toList) =
      root.text ++ requestedFile value params := by rw [file, filePath_root]
  exact ⟨before, value, query, params, shape, path, by rw [path, root.pathBelow_append_iff]⟩

theorem processUpload_below_iff_core :
    let req : VariantRequest := .dynamicbody
      ⟨.get, "/redfish/v1/Systems/system/LogServices/Dump/core.7/attachment".toList, 11, [], by decide⟩
    let httpfunc : HttpFunction := ⟨req.target, [⟨"filename".toList, "core.7".toList⟩]⟩
    ∃ before value query params, DumpTarget req.target before value query params ∧
      (DumpUploader.mk "/dumps/".toList).filePath (httpfunc.get "filename".toList) =
        "/dumps/".toList ++ requestedFile value params ∧
      (PathBelow "/dumps/".toList
          ((DumpUploader.mk "/dumps/".toList).filePath (httpfunc.get "filename".toList)) ↔
        RootPath.Returns ⟨"/dumps/".toList, by decide, by decide, by decide⟩
          (requestedFile value params)) :=
  @processUpload_below_iff ⟨"/dumps/".toList, by decide, by decide, by decide⟩ DumpHandler
    (DumpUploader.addRoutes {}) _
    ⟨⟨dumpRoute, .get⟩, .processUpload,
      ⟨"/redfish/v1/Systems/system/LogServices/Dump/core.7/attachment".toList,
        [⟨"filename".toList, "core.7".toList⟩]⟩⟩
    (by decide +kernel) rfl

theorem dump_requests_leave_root :
    let router := DumpUploader.addRoutes {}
    let uploader := DumpUploader.mk "/dumps/".toList
    let queried : VariantRequest := .dynamicbody
      ⟨.get, "/redfish/v1/Systems/system/LogServices/Dump/x/attachment?filename=..".toList, 11, [], by decide⟩
    let climbing : VariantRequest := .dynamicbody
      ⟨.get, "/redfish/v1/Systems/system/LogServices/Dump/../etc/passwd/attachment".toList, 11, [], by decide⟩
    (router.dispatch queried).map (fun call =>
        (call.key.path, uploader.filePath (call.httpfunc.get "filename".toList))) =
      .ok (dumpRoute, "/dumps/..".toList) ∧
    ¬ PathBelow "/dumps/".toList "/dumps/..".toList ∧
    (router.dispatch climbing).map (fun call =>
        (call.key.path, uploader.filePath (call.httpfunc.get "filename".toList))) =
      .ok (dumpRoute, "/dumps/../etc/passwd".toList) ∧
    ¬ PathBelow "/dumps/".toList "/dumps/../etc/passwd".toList := by
  decide +kernel

end ChaiBeast.Dump
