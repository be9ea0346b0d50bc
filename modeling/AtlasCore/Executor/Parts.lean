import AtlasCore.Evaluator.Evaluate

/-!
# Writing an output

The executor writes the body of the route, then what a producer found, then the observed texts it
was given, and then the sections that the last evaluation missed.  It returns the producer's section
apart from the whole, because the whole holds text of the repository.

The texts of the routes are the source's own, in its language.  Of what the parts depend on, only
the observations are foreign text: labels of sources are listed by name, and the observed texts
themselves follow under a heading of their own.
-/

set_option autoImplicit false

namespace AtlasCore

open Py

/-- `MAX_SOURCES`: how many of the observed sources a section names. -/
def MAX_SOURCES : ℕ := 8

/-- An `AtlasPlan` with the lists that only the executor writes out. -/
structure ExecutionPlan extends AtlasPlan where
  steps : List Str
  stopConditions : List Str

/-! ## The bodies of the routes

What is produced without a model: a skeleton for each route. -/

/-- `_repo_review`. -/
def repoReviewBody (task : Str) : Str :=
  str "# Repo Review\n\n## Goal\n" ++ task ++
  str "\n\n## Review method\n- Repoet bör bedömas utifrån roll, boundaries, docs, tester, " ++
    str "public-safe-regler och nästa minsta PR-slice.\n- Live kodsanning ska inte gissas. Den " ++
    str "måste verifieras i repo, CI eller relevanta verktyg.\n- Förbättringar bör delas i " ++
    str
      "P0/P1/P2 så att arbetet inte blir en stor blandad PR.\n\n## P0 — fixa först\n- Bekräfta " ++
    str "repoets read-order och source-of-truth boundary.\n- Identifiera stale docs eller " ++
    str "instruktioner som kan få agenten att läsa för mycket.\n- Lägg till eller uppdatera " ++
    str "validation commands om de saknas.\n\n## P1 — fixa sedan\n- Förbättra exempel, " ++
    str "screenshots eller demo-output där det hjälper repoets publika förståelse.\n- Lägg till " ++
    str "tydligare issue/PR-mallar om repoet saknar styrning.\n- Dela övervuxna docs i små " ++
    str "context surfaces.\n\n## P2 — polish\n- Gör README kortare om den duplicerar djupare " ++
    str "docs.\n- Lägg till mer kompakta testprompter för Codex/Claude/ChatGPT.\n- Skapa en " ++
    str "liten roadmap med nästa 3 PR-slices.\n\n## Suggested PR slices\n1. docs: tighten " ++
    str "read-order and truth-boundary section\n2. tests: add/verify context budget and " ++
    str "public-safe validation\n3. examples: add one sanitized end-to-end context-pack " ++
    str "example\n\n## Recommendation\nTa P0-listan först och kör varje post som en egen " ++
    str
      "PR-slice. Blanda inte in P1 eller P2 i samma diff.\n\n## Next step\nVerifiera P0-listan " ++
    str "mot repots faktiska innehåll innan någon ändring görs.\n\n## Confidence\nMedium. This " ++
    str "MVP did not perform a full live GitHub scan unless observations were provided by an " ++
    str "adapter.\n"

/-- `_architecture_decision`. -/
def architectureDecisionBody (task : Str) : Str :=
  str "# Architecture Decision\n\n## Goal\n" ++ task ++
  str "\n\n## Requirements\n- Säker styrning\n- Tydliga trust boundaries\n- Stegvis " ++
    str
      "införande\n- Mätbar kvalitet och kostnad\n- Möjlighet att byta komponenter senare\n\n## " ++
    str "High-level design\nBygg runt ett kontrollplan: identitet, policy, gateway, " ++
    str
      "observability och tydlig datagräns.\nLåt implementationer/modeller vara utbytbara bakom " ++
    str "stabila kontrakt.\n\n## Risks\n- För brett scope i första versionen\n- Oklara " ++
    str "informationsklasser\n- Leverantörslåsning\n- Otillräcklig logging eller för " ++
    str
      "innehållsrik logging\n- Ingen exit-plan\n\n## Options\n1. Köp färdig tjänst — snabbast, " ++
    str "men mest låsning.\n2. Bygg själv — mest kontroll, men dyrast och långsammast.\n3. " ++
    str "Hybrid — bäst balans när säkerhet och snabb nytta båda spelar roll.\n\n## " ++
    str "Recommendation\nVälj hybrid som default om kraven innehåller både snabb införing och " ++
    str "stark kontroll.\n\n## Next step\nDefiniera en 6–12 veckors pilot med tydliga " ++
    str "go/no-go-kriterier.\n\n## Confidence\nMedium. Faktiska krav, juridik och " ++
    str "produktdetaljer måste verifieras.\n"

/-- `_root_cause`. -/
def rootCauseBody (task : Str) : Str :=
  str "# Root Cause Analysis\n\n## Problem\n" ++ task ++
  str "\n\n## Symptoms vs causes\n- Symptom: det synliga problemet eller upprepade stoppet.\n- " ++
    str "Contributing factors: process, verktyg, otydligt ägarskap eller sena kontroller.\n- " ++
    str "Possible root cause: systemet saknar tidig feedback, tydliga gates eller ansvar.\n\n## " ++
    str "Causal chain\nTrigger\n↓\nSen upptäckt / otydlig signal\n↓\nManuell tolkning eller " ++
    str
      "brist på ansvar\n↓\nFlödet fastnar i sista steget\n\n## Likely root cause\nKontrollerna " ++
    str "kommer för sent eller är för otydliga för att teamet ska kunna agera tidigare.\n\n## " ++
    str "Leverage points\n- Flytta kontroller tidigare.\n- Gör stoppsignaler maskinläsbara.\n- " ++
    str "Definiera ägare för varje gate.\n- Mät återkommande stopporsaker.\n\n## Recommended " ++
    str "actions\n1. Logga de senaste 5 stopporsakerna.\n2. Dela dem i policy, test, review, " ++
    str "release eller ägarskap.\n3. Flytta vanligaste stoppet till tidigare fas.\n4. Skapa en " ++
    str "enkel check innan sista steget.\n\n## Next step\nBörja med punkt 1: logga de senaste 5 " ++
    str "stopporsakerna innan någon process ändras.\n\n## Confidence\nMedium without concrete " ++
    str "incident data.\n"

/-- `_decision_tradeoff`. -/
def decisionTradeoffBody (task : Str) : Str :=
  str "# Decision & Trade-off\n\n## Decision\n" ++ task ++
  str "\n\n## Options\n1. Minimal path — snabbt, låg risk, men begränsad effekt.\n2. Balanced " ++
    str "path — lagom scope, tydlig kvalitet, bra för nästa steg.\n3. Ambitious path — hög " ++
    str "effekt, men större komplexitet och risk.\n\n## Trade-offs\n- Speed vs control\n- " ++
    str
      "Simplicity vs flexibility\n- Short-term delivery vs long-term maintainability\n- Manual " ++
    str "work vs automation\n\n## Recommendation\nVälj balanced path om beslutet påverkar fler " ++
    str "än ett arbetsflöde eller repo.\n\n## Next step\nSkriv ned beslutets success criteria " ++
    str "innan implementation.\n\n## Confidence\nMedium.\n"

/-- `_learning`. -/
def learningBody (task : Str) : Str :=
  str "# Explanation\n\n## Simple explanation\n" ++ task ++
  str "\n\nTänk på det som ett system där du först vill förstå vad saken gör, sedan varför " ++
    str "den " ++
    str "finns, och till sist hur du kan använda den utan att blanda ihop den med andra " ++
    str "saker.\n\n## Common confusion\nMånga blandar ihop verktyget, processen, minnet och " ++
    str
      "resultatet. Separera dessa så blir systemet lättare att förstå.\n\n## Example\nOm Atlas " ++
    str "är en loop, är prompten inte motorn. Prompten är mer som instruktionen på " ++
    str "instrumentpanelen.\n\n## Understanding check\nKan du beskriva skillnaden mellan en " ++
    str "router och en executor i en mening?\n\n## Recommendation\nBygg förståelsen i den " ++
    str
      "ordningen: vad saken gör, varför den finns, hur den används. Hoppa inte till detaljerna " ++
    str "först.\n\n## Next step\nSvara på understanding check ovan med egna ord innan du går " ++
    str "vidare.\n\n## Confidence\nMedium.\n"

/-- `_prompt_improvement`. -/
def promptImprovementBody (task : Str) : Str :=
  str "# Prompt Improvement\n\n## Goal\n" ++ task ++
  str "\n\n## Diagnosis\nEn stark prompt ska inte försöka bära hela systemet själv. Den ska " ++
    str
      "definiera roll, gränser, route-regler, output och quality gates.\n\n## Failure modes\n- " ++
    str "För lång prompt som blandar policy, minne och output.\n- Router som väljer prompt men " ++
    str "inte kör svaret.\n- Otydliga stop-regler.\n- Inga testfall.\n\n## Better structure\n1. " ++
    str "Trigger\n2. Task classification\n3. Route selection\n4. Execution rule\n5. Evaluation " ++
    str "rule\n6. Output format\n7. Safety/write boundary\n8. Test cases\n\n## " ++
    str "Recommendation\nGör prompten till ett tunt gränssnitt ovanpå en " ++
    str "loop/state-machine.\n\n## Next step\nSkriv routes som data, inte som långa " ++
    str "promptstycken.\n\n## Confidence\nHigh.\n"

/-- `_general`. -/
def generalBody (task : Str) : Str :=
  str "# Answer\n\n## Goal\n" ++ task ++
  str "\n\n## Response\nAtlas Core hanterar detta som en generell uppgift. För ett starkare " ++
    str "svar, ge mer kontext eller välj en specifik route.\n\n## Recommendation\nAnvänd en " ++
    str "specifik route om uppgiften är större än en enkel fråga.\n\n## Next step\nKör igen med " ++
    str "mer konkret mål, constraints och önskat format.\n\n## Confidence\nLow-to-medium.\n"

/-- `_ROUTE_BODIES`: the text of a route, with the task in it. -/
def routeBody : RouteName → Str → Str
  | .repoReview => repoReviewBody
  | .architectureDecision => architectureDecisionBody
  | .rootCause => rootCauseBody
  | .decisionTradeoff => decisionTradeoffBody
  | .learning => learningBody
  | .promptImprovement => promptImprovementBody
  | .general => generalBody

/-! ## The sections after the body

What is added to a body: the sources, what was observed, and what could not be verified. -/

/-- A section as each builder below writes one. -/
def titled (title text : Str) : Str := lf :: str "## " ++ title ++ lf :: text ++ [lf]

/-- What the section of the sources holds: each observed text as it is, after a dash. -/
def listedSources (observations : List Str) : Str :=
  join [lf] ((observations.take MAX_SOURCES).map (str "- " ++ ·))

/-- `_sources_section`: what was read, listed under a heading of its own. -/
def sourcesSection (observations : List Str) : Str :=
  titled (str "Sources inspected") (listedSources observations)

/-- The sentence above the sources that were observed. -/
def observedNote : Str :=
  str "Filerna nedan lästes denna körning; innehållet återges under 'Sources inspected'. Detta " ++
    str
      "intygar att de observerades — inte att någon brist eller förbättring i repot är sakligt " ++
    str "verifierad."

/-- The sentence above the claims that were not verified. -/
def unverifiedNote : Str :=
  str "Följande påståenden kunde inte knytas till någon observerad källa och står kvar som " ++
    str "hypoteser:"

/-- `_EVIDENCE_GAPS`: the gaps that naming the sources may help with. -/
def EVIDENCE_GAPS : List Gap := [.sourcesNotDocumented, .uncitedFindings]

/-- The list of the observed sources, no more of them than fit. -/
def namedSources (sources : List Str) : Str :=
  join [lf] ((sources.take MAX_SOURCES).map fun s ↦ str "- `" ++ s ++ str "`")

/-- The list of the unverified claims, one on each line. -/
def namedClaims (claims : List Str) : Str := join [lf] (claims.map (str "- " ++ ·))

/-- `_evidence_section`: the sources are named where the pass before lacked them, and the claims
that it could not verify. -/
def evidenceSection (feedback : AtlasEvaluation) (observations : List Str) : Str :=
  let sources := observedSources observations
  if !feedback.evidenceGaps.any (· ∈ EVIDENCE_GAPS) then []
  else if sources = [] then []
  else
    titled (str "Observed sources") (observedNote ++ lf :: namedSources sources) ++
      if feedback.unverifiedClaims = [] then []
      else titled (str "Unverified claims")
        (unverifiedNote ++ lf :: namedClaims feedback.unverifiedClaims)

/-- `_gap_recommendation`: a recommendation that is derived from the plan, for an output that had
none. -/
def gapRecommendation (plan : ExecutionPlan) : Str :=
  let steps := if plan.steps = [] then str "route-stegen" else join (str ", ") plan.steps
  titled (str "Recommendation")
    (str "Följ route '" ++ plan.routeName.text ++ str "' steg för steg: " ++ steps ++
      str ". Stanna när något av stop conditions är uppfyllt: " ++
      join (str ", ") plan.stopConditions ++ str ".")

/-- `_gap_next_step`: the first step of the plan, for an output that named none. -/
def gapNextStep (plan : ExecutionPlan) : Str :=
  titled (str "Next step")
    (str "Börja med steget '" ++ plan.steps.headD (str "understand") ++ str "'.")

/-- `_gap_confidence`: low, because nothing new was observed. -/
def gapConfidence : Str :=
  titled (str "Confidence")
    (str
      "Low. Innehållet i detta varv är härlett från route-planen, inte från nya observationer " ++
      str "eller verifierade källor.")

/-- `_GAP_BUILDERS`: what is put in for a section that is missing. -/
def gapBuilder (plan : ExecutionPlan) : Section → Str
  | .recommendation => gapRecommendation plan
  | .nextStep => gapNextStep plan
  | .confidence => gapConfidence

/-- The sections that close the gaps the evaluator named. -/
def gapSections (plan : ExecutionPlan) (gaps : List Section) : Str :=
  if gaps = [] then []
  else
    titled (str "Loop improvement")
      (str "Nytt varv efter evaluation. Evalueringen saknade: " ++
        join (str ", ") (gaps.map (·.code)) ++
        str
          ". Sektionerna nedan lades till i detta varv och är härledda från route-planen, inte " ++
          str "från nya observationer.") ++
      gaps.flatMap (gapBuilder plan)

/-- `_refinement_section`: what a later pass adds to the first: the sources it lacked and the
sections it missed. -/
def refinementSection (plan : ExecutionPlan) (feedback : AtlasEvaluation)
    (observations : List Str) : Str :=
  evidenceSection feedback observations ++ gapSections plan feedback.missingSections

/-- `execute_plan_parts`, with what `produce_repo_review` writes for a base. -/
def executePlanParts (produceRepoReview : Str → ExecutionPlan → EvidenceBase → Str) (task : Str)
    (plan : ExecutionPlan) (observations : List Str) (feedback : Option AtlasEvaluation)
    (evidenceBase : Option EvidenceBase) : Str × Str :=
  let produced := match evidenceBase with
    | some base => produceRepoReview task plan base
    | none => []
  (routeBody plan.routeName task ++ produced ++
    (if observations = [] then [] else sourcesSection observations) ++
    (match feedback with
      | some feedback => refinementSection plan feedback observations
      | none => []), produced)

end AtlasCore
